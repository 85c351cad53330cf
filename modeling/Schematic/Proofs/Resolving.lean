import Schematic.Placement.Solution
import Schematic.Proofs.FixedPoint
import Schematic.Proofs.Keyed
import Schematic.Proofs.Linearity
import Schematic.Proofs.Lines
import Schematic.Proofs.Outcome

/-!
# Resolving checked sides

A side is folded twice: when it is read, to see that it has an expression over its own
references, and again when it is placed, over their variables. The second fold cannot find
fault with what the first one passed: it gives the same expression over other keys, or it
refuses the first reference that has no key.

* `Side.resolveWith_eq`: looking for the key of a reference when the fold gets there comes to the
  same as looking for the keys afterwards.
* `Side.resolved_or_refused`: what folding a checked side again comes to.
* `Side.refold_agrees`: the two folds agree, and placing a document finds no side without an
  expression.
-/

namespace Schematic

variable {α κ ε σ : Type}

namespace Side

/-! ### Resolving on the way -/

section OnTheWay

variable [Scalar α] {m : Type → Type} [Monad m] [LawfulMonad m] {lookup : Reference → ExceptT ε m κ}

/-- Looking for the keys on the way and putting them in their places afterwards. -/
theorem resolveFrom_eq (value : Running α) (keys : List κ) (terms : List (Term α)) :
    resolveFrom lookup value keys terms = do
      let more ← ((foldFrom value terms).asked.mapM lookup).adapt .lookup
      match (foldFrom value terms).result with
      | .error fault => throw (.fault fault)
      | .ok e => return ⟨(keys ++ more).zip (e.terms.map (·.2)), e.constant⟩ := by
  fun_induction foldFrom value terms generalizing keys with
  | case1 value => simp [resolveFrom, adapt_pure]
  | case2 value op c rest next hnext ih =>
    simp only [resolveFrom, hnext]
    exact ih keys
  | case3 value op c rest fault hfault => simp [resolveFrom, hfault, adapt_pure]
  | case4 value op name rest asked e he folded ih =>
    have hasks : asks value op = true := asks_of_withReference he
    have hasked : asked = [name] := if_pos hasks
    simp only [resolveFrom, hasks, if_true, he]
    simp only [ih, hasked, List.singleton_append, List.mapM_cons, adapt_bind, adapt_pure, bind_assoc,
      pure_bind, List.append_assoc]
    rfl
  | case5 value op name rest asked fault hfault =>
    by_cases hasks : asks value op
    · have hasked : asked = [name] := if_pos hasks
      simp only [resolveFrom, hasks, if_true, hfault, hasked, List.mapM_cons, List.mapM_nil, adapt_bind,
        adapt_pure, bind_assoc, pure_bind]
    · have hasked : asked = [] := if_neg hasks
      simp [resolveFrom, hasks, hfault, hasked, adapt_pure]
  | case6 value op op' rest => simp [resolveFrom, adapt_pure]
  | case7 => simp [resolveFrom, adapt_pure]
  | case8 => simp [resolveFrom, adapt_pure]
  | case9 => simp [resolveFrom, adapt_pure]

/-- **It makes no difference** whether the keys are looked for on the way or afterwards, as long
as those that a faulty side has asked for are looked for as well. -/
theorem resolveWith_eq (side : List (Term α)) :
    resolveWith lookup side = (fold side).resolveM lookup := by
  unfold resolveWith fold Folded.resolveM
  split
  · simp [adapt_pure]
  · simp [adapt_pure]
  · rename_i c rest
    rw [resolveFrom_eq]
    rfl
  · rename_i name rest
    simp only [resolveFrom_eq, List.mapM_cons, adapt_bind, adapt_pure, bind_assoc, pure_bind]
    rfl

end OnTheWay

/-! ### Sides that were checked -/

section Checked

variable [Scalar α] {side : List (Term α)} {x : LinearExpr α Reference}

/-- Over its own references a side has the expression that it has. -/
theorem resolve_self_iff :
    (fold side).resolve (fun name => (.ok name : Except Empty Reference)) = .ok x ↔
      (fold side).result = .ok x := by
  have hself : ∀ names : List Reference,
      names.mapM (fun name => (.ok name : Except Empty Reference)) = .ok names := by
    intro names
    rw [mapM_eq_ok_iff, List.forall₂_same]
    intro name _
    rfl
  rw [Folded.resolve_eq, hself]
  cases hresult : (fold side).result with
  | error fault => simp
  | ok e =>
    -- the terms are put together again out of their references and their factors
    have hterms : (fold side).asked.zip (e.terms.map (·.2)) = e.terms := by
      rw [← fold_terms hresult]
      exact (List.zip_map' ..).trans (List.map_id _)
    simp only [hterms, Except.ok.injEq]

/-- **Folding a checked side again** gives its expression over the keys of its references, or
the refusal of the first reference that has none. -/
theorem resolved_or_refused (h : (fold side).result = .ok x)
    (lookup : Reference → ExceptT ε (StateM σ) κ) (s : σ) :
    (∃ e s', Yields ((fold side).resolveM lookup) s e s' ∧
      Yields ((references side).mapM lookup) s (e.terms.map (·.1)) s' ∧
      e.terms.map (·.2) = x.terms.map (·.2) ∧ e.constant = x.constant) ∨
    ∃ error s', FirstRefused lookup (references side) s error s' ∧
      Fails ((fold side).resolveM lookup) s (.lookup error) s' := by
  have hasked := fold_asked h
  simp only [Folded.resolveM, hasked, h, yields_bind, yields_adapt, fails_bind]
  rcases mapM_yields_or_refused lookup (references side) s with
    ⟨keys, s', hkeys⟩ | ⟨error, s', hfirst, hfails⟩
  · left
    -- there is a key for every term
    have hlength : keys.length = (x.terms.map (·.2)).length := by
      rw [length_of_yields_mapM hkeys, ← hasked, ← fold_terms h, List.length_map, List.length_map]
    refine ⟨_, s', ⟨keys, s', hkeys, yields_pure.2 ⟨rfl, rfl⟩⟩, ?_, ?_, rfl⟩
    · rwa [List.map_fst_zip hlength.le]
    · exact List.map_snd_zip hlength.ge
  · right
    exact ⟨error, s', hfirst, .inl (fails_adapt hfails)⟩

end Checked

end Side

/-! ### Placing what was read -/

section Placing

variable [Scalar α]

namespace Graph

variable {g : Graph α} {span : Span} {fault : MalformedEquation α}

omit [Scalar α] in
/-- A reference that has no variable is undefined, and that is all that is wrong with it. -/
theorem resolve_ne_equation (reference : Reference) :
    g.resolve span reference ≠ .error (.equation fault) := by
  unfold resolve
  split
  · simp
  · split
    · split <;> simp
    · simp

/-- A linear side has an expression over variables, unless a reference has none. -/
theorem foldSide_ne_equation {equation : Equation α} {side : List (Term α)} (h : Side.Linear side) :
    g.foldSide span equation side ≠ .error (.equation fault) := by
  intro hside
  obtain ⟨x, hx⟩ := Side.exists_fold_iff.2 h
  rw [foldSide, Folded.resolve_eq, hx] at hside
  cases hkeys : (Side.fold side).asked.mapM (g.resolve span) with
  | ok keys => simp [hkeys, Except.mapError] at hside
  | error error =>
    obtain ⟨reference, -, hreference⟩ := exists_of_mapM_eq_error hkeys
    have herror : error = .equation fault := by simpa [hkeys, Except.mapError] using hside
    rw [herror] at hreference
    exact resolve_ne_equation reference hreference

theorem equationConstraint_ne_equation {equation : Located (Equation α)}
    (hleft : Side.Linear equation.value.left) (hright : Side.Linear equation.value.right) :
    g.equationConstraint equation ≠ .error (.equation fault) := by
  intro h
  rw [equationConstraint, except_bind_eq_error] at h
  rcases h with h | ⟨left, -, h⟩
  · exact foldSide_ne_equation hleft h
  rw [except_bind_eq_error] at h
  rcases h with h | ⟨right, -, h⟩
  · exact foldSide_ne_equation hright h
  split at h
  · simp at h
  · simp at h

end Graph

/-- What keeps a diagram from being placed is an equation or a contradiction. -/
theorem Diagram.exists_of_solveWith_eq_error {d : Diagram α} {σ : Type} {solver : Solver α σ}
    {settings : LayoutSettings α} {measure : DiagramBox → Size α} {error : LayoutError α}
    (h : d.solveWith solver settings measure = .error error) :
    (∃ equation ∈ d.equations, d.graph.equationConstraint equation = .error error) ∨
      ∃ contradiction, error = .solver contradiction := by
  rw [Diagram.solveWith, except_bind_eq_error] at h
  rcases h with h | ⟨_, -, h⟩
  · obtain ⟨t, c, hc, hstep⟩ := exists_of_foldlM_eq_error h
    rw [except_bind_eq_error] at hstep
    rcases hstep with hstep | ⟨c', -, hstep⟩
    · subst hstep
      rcases List.mem_append.1 hc with hc | hc
      · simp at hc
      · obtain ⟨equation, hmem, hequation⟩ := List.mem_map.1 hc
        exact .inl ⟨equation, hmem, hequation⟩
    · right
      cases hrefused : solver.step t c' with
      | ok t' => simp [hrefused, Except.mapError] at hstep
      | error contradiction =>
        rw [hrefused] at hstep
        exact ⟨contradiction, (Except.error.inj hstep).symm⟩
  · simp at h

theorem Document.build_equations {document : Document α} {diagram : Diagram α}
    (h : document.build = .ok diagram) : diagram.equations = document.equations := by
  simp only [Document.build, except_bind_eq_ok] at h
  obtain ⟨_, _, _, _, _, _, h⟩ := h
  obtain rfl := Except.ok.inj h
  rfl

variable [Numeral α]

/-- No document that was read and built is refused for a side that has no expression. -/
theorem solveWith_ne_equation {source : String} {document : Document α} {diagram : Diagram α}
    (hread : parse source = .ok document) (hbuild : document.build = .ok diagram) {σ : Type}
    (solver : Solver α σ) (settings : LayoutSettings α) (measure : DiagramBox → Size α)
    (fault : MalformedEquation α) :
    diagram.solveWith solver settings measure ≠ .error (.equation fault) := by
  intro h
  rcases Diagram.exists_of_solveWith_eq_error h with ⟨equation, hmem, hequation⟩ | ⟨_, hsolver⟩
  · rw [Document.build_equations hbuild] at hmem
    obtain ⟨parts, hparts⟩ := parse_equations hread equation hmem
    obtain ⟨-, hleft, hright⟩ := Equation.ofParts_eq_ok_iff.1 hparts
    exact Graph.equationConstraint_ne_equation hleft hright hequation
  · simp at hsolver

/-- **The two folds agree.** If a side has an expression over its own references, then with
every lookup, on the way or afterwards, it has that expression over the keys of its references,
or it is refused for the first reference that the lookup refuses. So no document that was read
and built is refused because a side of an equation has no expression, whatever the solver does. -/
theorem Side.refold_agrees :
    (∀ (side : List (Term α)) (x : LinearExpr α Reference),
      (fold side).resolve (fun name => (.ok name : Except Empty Reference)) = .ok x →
      x.terms.map (·.1) = references side ∧
      ∀ {κ ε σ : Type} (lookup : Reference → ExceptT ε (StateM σ) κ),
        resolveWith lookup side = (fold side).resolveM lookup ∧ ∀ s : σ,
          (∃ e s', Yields ((fold side).resolveM lookup) s e s' ∧
            Yields ((references side).mapM lookup) s (e.terms.map (·.1)) s' ∧
            e.terms.map (·.2) = x.terms.map (·.2) ∧ e.constant = x.constant) ∨
          ∃ error s', FirstRefused lookup (references side) s error s' ∧
            Fails ((fold side).resolveM lookup) s (.lookup error) s') ∧
    ∀ (source : String) (document : Document α) (diagram : Diagram α),
      parse source = .ok document → document.build = .ok diagram →
      ∀ {σ : Type} (solver : Solver α σ) settings measure fault,
        diagram.solveWith solver settings measure ≠ .error (.equation fault) := by
  refine ⟨fun side x h => ?_, fun source document diagram hread hbuild => ?_⟩
  · have hfold := resolve_self_iff.1 h
    refine ⟨?_, fun lookup => ⟨resolveWith_eq side, resolved_or_refused hfold lookup⟩⟩
    rw [fold_terms hfold, fold_asked hfold]
  · exact solveWith_ne_equation hread hbuild

end Placing

/-! ### A lookup that refuses -/

namespace Side

/-- `2 * a.left - b.left`. -/
def apart : List (Term FixedPoint) :=
  [.constant Scalar.two, .operation .multiply, .reference ⟨"a", ["left"]⟩, .operation .subtract,
    .reference ⟨"b", ["left"]⟩]

/-- A lookup that numbers references to `a` and refuses all others by their heads. -/
def onlyA (name : Reference) : ExceptT String (StateM ℕ) ℕ := do
  let n ← get
  set (n + 1)
  if name.head = "a" then return n else throw name.head

/-- A box that an equation places. -/
def oneBox : String := "box a\nconstrain 2 * a.left == graph.width - 10"

theorem refold_apart :
    (∃ x, (fold apart).resolve (fun name => (.ok name : Except Empty Reference)) = .ok x ∧
      x.terms.map (·.1) = references apart ∧
      ∃ error s', FirstRefused onlyA (references apart) 0 error s' ∧
        Fails ((fold apart).resolveM onlyA) 0 (.lookup error) s') ∧
    ∃ (document : Document FixedPoint) (diagram : Diagram FixedPoint),
      parse oneBox = .ok document ∧ document.build = .ok diagram ∧
      ∀ {σ : Type} (solver : Solver FixedPoint σ) settings measure fault,
        diagram.solveWith solver settings measure ≠ .error (.equation fault) := by
  obtain ⟨hsides, hsources⟩ := refold_agrees (α := FixedPoint)
  constructor
  · have hfold : ((fold apart).resolve
        (fun name => (.ok name : Except Empty Reference))).toOption.isSome := by decide +kernel
    obtain ⟨x, hx⟩ := Option.isSome_iff_exists.1 hfold
    have hok := eq_ok_of_toOption hx
    obtain ⟨hterms, hagain⟩ := hsides apart x hok
    obtain ⟨-, hagain⟩ := hagain onlyA
    refine ⟨x, hok, hterms, ?_⟩
    rcases hagain 0 with ⟨e, s', -, hkeys, -, -⟩ | hrefused
    · -- the lookup finds no key for the second reference
      have hstuck : Fails ((references apart).mapM onlyA) 0 "b" 2 := by
        unfold Fails
        decide +kernel
      rw [Yields, hstuck] at hkeys
      simp at hkeys
    · exact hrefused
  · obtain ⟨document, diagram, hdocument, hbuild⟩ :=
      exists_built (α := FixedPoint) oneBox (by decide +kernel)
    exact ⟨document, diagram, hdocument, hbuild, hsources _ document diagram hdocument hbuild⟩

end Side

end Schematic
