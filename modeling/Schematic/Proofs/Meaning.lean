import Mathlib
import Schematic.Proofs.Exact
import Schematic.Source.Validation

/-!
# What a side means

A side is read strictly from left to right: every operation combines the value so far with
the value of the next term. Folding keeps this value, whatever its references stand for.

* `Side.value?`: the value of a side, given the values of its references.
* `LinearExpr.value`: the value of an expression, given the values of its keys.
* `Side.foldFrom_value`: what folding keeps from one term to the next.
* `Side.resolveM_fold`: a side and its expression have the same value, and the keys of the
  expression are those of the references, one for each occurrence.
-/

namespace Schematic

@[simp] theorem Scalar.one_rat : (Scalar.one : Rat) = 1 := rfl

/-! ### Reading from left to right -/

/-- Two values combined by an operation. There is no quotient by zero. -/
def Operation.combine? (op : Operation) (x y : Rat) : Option Rat :=
  match op with
  | .add => some (x + y)
  | .subtract => some (x - y)
  | .multiply => some (x * y)
  | .divide => if y = 0 then none else some (x / y)

namespace Side

/-- The references of a side, one for each occurrence. -/
def references {α : Type} (side : List (Term α)) : List Reference :=
  side.filterMap fun
    | .reference name => some name
    | _ => none

/-- The value of a term, and the values that are left for the terms after it. -/
def operand? : Term Rat → List Rat → Option (Rat × List Rat)
  | .constant c, values => some (c, values)
  | .reference _, value :: values => some (value, values)
  | _, _ => none

/-- The value of what follows a value. -/
def valueFrom? (x : Rat) : List (Term Rat) → List Rat → Option Rat
  | [], [] => some x
  | .operation op :: t :: rest, values => do
    let (y, left) ← operand? t values
    let z ← op.combine? x y
    valueFrom? z rest left
  | _, _ => none

/-- **The value of a side.** Its references take the given values, in order and one for each
occurrence. -/
def value? : List (Term Rat) → List Rat → Option Rat
  | [], _ => none
  | t :: rest, values => do
    let (x, left) ← operand? t values
    valueFrom? x rest left

end Side

namespace LinearExpr

variable {κ : Type}

/-- **The value of an expression**: every key is worth what it is given. -/
def value (e : LinearExpr Rat κ) (worth : κ → Rat) : Rat :=
  (e.terms.map fun (key, c) => c * worth key).sum + e.constant

/-- The value of an expression whose terms take the given values, in order. -/
def weigh (e : LinearExpr Rat κ) (values : List Rat) : Rat :=
  (List.zipWith (fun term v => term.2 * v) e.terms values).sum + e.constant

@[simp] theorem weigh_ofConstant (c : Rat) (values : List Rat) :
    (ofConstant c : LinearExpr Rat κ).weigh values = c := by
  simp [weigh, ofConstant]

@[simp] theorem weigh_ofKey (key : κ) (v : Rat) : (ofKey key).weigh [v] = v := by
  simp only [weigh, ofKey, List.zipWith_cons_cons, List.zipWith_nil_left, List.sum_cons,
    List.sum_nil, Scalar.one_rat, Scalar.zero_rat]
  ring

theorem weigh_scale (e : LinearExpr Rat κ) (factor : Rat) (values : List Rat) :
    (e.scale factor).weigh values = e.weigh values * factor := by
  obtain ⟨terms, constant⟩ := e
  simp only [weigh, scale]
  induction terms generalizing values with
  | nil => simp
  | cons term terms ih =>
    cases values with
    | nil => simp
    | cons v values =>
      have htail := ih values
      simp only [List.map_cons, List.zipWith_cons_cons, List.sum_cons] at htail ⊢
      linear_combination htail

theorem weigh_addSigned (e f : LinearExpr Rat κ) (sign : Rat) {us : List Rat} (vs : List Rat)
    (hus : us.length = e.terms.length) :
    (e.addSigned f sign).weigh (us ++ vs) = e.weigh us + f.weigh vs * sign := by
  have hscaled := weigh_scale f sign vs
  simp only [weigh, scale] at hscaled
  simp only [weigh, addSigned]
  rw [List.zipWith_append hus.symm, List.sum_append]
  linear_combination hscaled

end LinearExpr

namespace Side

variable {value : Running Rat} {op : Operation} {us : List Rat}

theorem combine?_eq_sum (hop : op = .add ∨ op = .subtract) (x y : Rat) :
    op.combine? x y = some (x + y * sign op) := by
  rcases hop with rfl | rfl <;> simp [Operation.combine?, sign, sub_eq_add_neg]

/-- A constant changes the value so far as its operation says. -/
theorem withConstant_value {c : Rat} {next : Running Rat}
    (hus : us.length = (expr value).terms.length) (h : withConstant value op c = .ok next) :
    op.combine? ((expr value).weigh us) c = some ((expr next).weigh us) := by
  cases value with
  | constant b =>
    cases op with
    | add | subtract | multiply =>
      obtain rfl := Except.ok.inj h
      simp [Operation.combine?, expr]
    | divide =>
      by_cases hc : c = 0
      · simp [withConstant, hc] at h
      · have hnext : Running.constant (b / c) = next := by simpa [withConstant, hc] using h
        subst hnext
        simp [Operation.combine?, expr, hc]
  | linear e =>
    have hsum : ∀ sign, (e.addSigned (.ofConstant c) sign).weigh us = e.weigh us + c * sign := by
      intro sign
      have hadd := LinearExpr.weigh_addSigned e (.ofConstant c) sign [] hus
      rwa [List.append_nil, LinearExpr.weigh_ofConstant] at hadd
    cases op with
    | add | subtract =>
      obtain rfl := Except.ok.inj h
      rw [combine?_eq_sum (by simp), expr, expr, hsum]
    | multiply =>
      obtain rfl := Except.ok.inj h
      simp [Operation.combine?, expr, LinearExpr.weigh_scale]
    | divide =>
      by_cases hc : c = 0
      · simp [withConstant, hc] at h
      · have hnext : Running.linear (e.scale (1 / c)) = next := by simpa [withConstant, hc] using h
        subst hnext
        simp only [Operation.combine?, expr, LinearExpr.weigh_scale, hc, if_false]
        rw [div_eq_mul_one_div]

/-- A reference changes the value so far as its operation says. -/
theorem withReference_value {name : Reference} {e : LinearExpr Rat Reference} (v : Rat)
    (hus : us.length = (expr value).terms.length) (h : withReference value op name = .ok e) :
    op.combine? ((expr value).weigh us) v = some (e.weigh (us ++ [v])) := by
  have hsum : ∀ sign, ((expr value).addSigned (.ofKey name) sign).weigh (us ++ [v]) =
      (expr value).weigh us + v * sign := by
    intro sign
    rw [LinearExpr.weigh_addSigned _ _ _ _ hus, LinearExpr.weigh_ofKey]
  cases value with
  | constant b =>
    obtain rfl : us = [] := List.length_eq_zero_iff.1 hus
    cases op with
    | add | subtract =>
      obtain rfl := Except.ok.inj h
      rw [combine?_eq_sum (by simp), ← hsum, expr]
    | multiply =>
      obtain rfl := Except.ok.inj h
      rw [List.nil_append, LinearExpr.weigh_scale, LinearExpr.weigh_ofKey, mul_comm]
      simp [Operation.combine?, expr]
    | divide => simp [withReference] at h
  | linear e =>
    cases op with
    | add | subtract =>
      obtain rfl := Except.ok.inj h
      rw [combine?_eq_sum (by simp), ← hsum, expr]
    | multiply | divide => simp [withReference] at h

theorem valueFrom?_constant (x c : Rat) (op : Operation) (rest : List (Term Rat)) (vs : List Rat) :
    valueFrom? x (.operation op :: .constant c :: rest) vs =
      (op.combine? x c).bind fun z => valueFrom? z rest vs := rfl

theorem valueFrom?_reference (x v : Rat) (op : Operation) (name : Reference)
    (rest : List (Term Rat)) (vs : List Rat) :
    valueFrom? x (.operation op :: .reference name :: rest) (v :: vs) =
      (op.combine? x v).bind fun z => valueFrom? z rest vs := rfl

/-- **Folding keeps the value** of what was read and what is still to be read. -/
theorem foldFrom_value {terms : List (Term Rat)} {e : LinearExpr Rat Reference} {vs : List Rat}
    (h : (foldFrom value terms).result = .ok e) (hus : us.length = (expr value).terms.length)
    (hvs : vs.length = (references terms).length) :
    valueFrom? ((expr value).weigh us) terms vs = some (e.weigh (us ++ vs)) := by
  fun_induction foldFrom value terms generalizing us vs with
  | case1 value =>
    obtain rfl := Except.ok.inj h
    obtain rfl : vs = [] := List.length_eq_zero_iff.1 hvs
    rw [List.append_nil]
    rfl
  | case2 value op c rest next hnext ih =>
    have hkeys := congrArg List.length (withConstant_keys hnext)
    simp only [List.length_map] at hkeys
    rw [valueFrom?_constant, withConstant_value hus hnext]
    exact ih h (hus.trans hkeys.symm) hvs
  | case4 value op name rest asked e' he =>
    rename_i ih
    have hkeys := congrArg List.length (withReference_keys he)
    simp only [List.length_map, List.length_append, List.length_singleton] at hkeys
    -- the first of the values is that of the reference, the others are for the terms after it
    obtain ⟨v, vs, rfl⟩ := List.exists_cons_of_length_eq_add_one hvs
    rw [valueFrom?_reference, withReference_value v hus he, List.append_cons us v vs]
    refine ih h ?_ (Nat.succ.inj hvs)
    rw [List.length_append, List.length_singleton, hus]
    exact hkeys.symm
  | _ => simp at h

theorem foldFrom_asked {α : Type} [Scalar α] {value : Running α} {terms : List (Term α)}
    {e : LinearExpr α Reference} (h : (foldFrom value terms).result = .ok e) :
    (foldFrom value terms).asked = references terms := by
  fun_induction foldFrom value terms with
  | case1 value => rfl
  | case2 value op c rest next hnext ih => exact ih h
  | case4 value op name rest asked e' he =>
    rename_i ih
    have hasked : asked = [name] := if_pos (asks_of_withReference he)
    change asked ++ _ = name :: references rest
    rw [hasked, ← ih h]
    rfl
  | _ => simp at h

/-- **What is asked for** on the way to an expression are the references of the side. -/
theorem fold_asked {α : Type} [Scalar α] {side : List (Term α)} {e : LinearExpr α Reference}
    (h : (fold side).result = .ok e) : (fold side).asked = references side := by
  unfold fold at h ⊢
  split at h
  · simp at h
  · simp at h
  · exact foldFrom_asked h
  · exact congrArg (_ :: ·) (foldFrom_asked h)

/-- **Folding keeps the value of a side.** -/
theorem fold_value {side : List (Term Rat)} {e : LinearExpr Rat Reference} {vs : List Rat}
    (h : (fold side).result = .ok e) (hvs : vs.length = (references side).length) :
    value? side vs = some (e.weigh vs) := by
  unfold fold at h
  split at h
  · simp at h
  · simp at h
  · rename_i c rest
    have hrest : valueFrom? ((expr (.constant c)).weigh []) rest vs = some (e.weigh ([] ++ vs)) :=
      foldFrom_value h rfl hvs
    rwa [expr, LinearExpr.weigh_ofConstant, List.nil_append] at hrest
  · rename_i name rest
    obtain ⟨v, vs, rfl⟩ := List.exists_cons_of_length_eq_add_one hvs
    have hrest : valueFrom? ((expr (.linear (.ofKey name))).weigh [v]) rest vs =
        some (e.weigh ([v] ++ vs)) := foldFrom_value h rfl (Nat.succ.inj hvs)
    rwa [expr, LinearExpr.weigh_ofKey] at hrest

end Side

/-! ### Resolving -/

section Resolving

variable {α κ ε ε' σ β γ : Type} {s s' : σ}

/-- What a lookup yields and the state it leaves, if it succeeds. -/
def Yields (x : ExceptT ε (StateM σ) β) (s : σ) (b : β) (s' : σ) : Prop :=
  Id.run (x.run.run s) = (.ok b, s')

@[simp] theorem yields_pure {b c : β} :
    Yields (pure b : ExceptT ε (StateM σ) β) s c s' ↔ b = c ∧ s = s' := by
  simp [Yields]

@[simp] theorem not_yields_throw {fault : ε} {b : β} :
    ¬Yields (throw fault : ExceptT ε (StateM σ) β) s b s' := by
  simp [Yields]

/-- A step after another succeeds if the first one does and the second one goes on from there. -/
theorem yields_bind {x : ExceptT ε (StateM σ) β} {f : β → ExceptT ε (StateM σ) γ} {c : γ} :
    Yields (x >>= f) s c s' ↔ ∃ b t, Yields x s b t ∧ Yields (f b) t c s' := by
  simp only [Yields, ExceptT.run_bind, StateT.run_bind, Id.run_bind]
  rcases (x.run.run s).run with ⟨fault | b, t⟩ <;> simp

theorem yields_adapt {x : ExceptT ε (StateM σ) β} {f : ε → ε'} {b : β} :
    Yields (x.adapt f) s b s' ↔ Yields x s b s' := by
  simp only [Yields, ExceptT.run_adapt]
  rcases hx : (x.run.run s).run with ⟨fault | b, t⟩ <;> simp [Except.mapError, hx]

theorem length_of_yields_mapM {f : β → ExceptT ε (StateM σ) γ} {xs : List β} {ys : List γ}
    (h : Yields (xs.mapM f) s ys s') : ys.length = xs.length := by
  induction xs generalizing ys s s' with
  | nil =>
    rw [List.mapM_nil, yields_pure] at h
    rw [← h.1, List.length_nil, List.length_nil]
  | cons x xs ih =>
    simp only [List.mapM_cons, yields_bind, yields_pure] at h
    obtain ⟨y, t, -, zs, t', hzs, rfl, -⟩ := h
    rw [List.length_cons, ih hzs, List.length_cons]

/-- **Resolving** puts the keys of the references in their places. -/
theorem Folded.resolveM_yields {folded : Folded α} {lookup : Reference → ExceptT ε (StateM σ) κ}
    {e : LinearExpr α κ} (h : Yields (folded.resolveM lookup) s e s') :
    ∃ keys e₀, Yields (folded.asked.mapM lookup) s keys s' ∧ folded.result = .ok e₀ ∧
      e = ⟨keys.zip (e₀.terms.map (·.2)), e₀.constant⟩ := by
  rw [resolveM, yields_bind] at h
  obtain ⟨keys, t, hkeys, h⟩ := h
  rw [yields_adapt] at hkeys
  cases hresult : folded.result with
  | error fault => simp [hresult] at h
  | ok e₀ =>
    simp only [hresult, yields_pure] at h
    obtain ⟨rfl, rfl⟩ := h
    exact ⟨keys, e₀, hkeys, rfl, rfl⟩

theorem mapM_eq_ok_iff {f : β → Except ε γ} {xs : List β} {ys : List γ} :
    xs.mapM f = .ok ys ↔ List.Forall₂ (fun x y => f x = .ok y) xs ys := by
  induction xs generalizing ys with
  | nil =>
    rw [List.mapM_nil, List.forall₂_nil_left_iff]
    exact ⟨fun h => (Except.ok.inj h).symm, fun h => congrArg Except.ok h.symm⟩
  | cons x xs ih =>
    simp only [List.mapM_cons, except_bind_eq_ok, ih, List.forall₂_cons_left_iff]
    constructor
    · rintro ⟨y, hy, zs, hzs, hys⟩
      exact ⟨y, zs, hy, hzs, (Except.ok.inj hys).symm⟩
    · rintro ⟨y, zs, hy, hzs, rfl⟩
      exact ⟨y, hy, zs, hzs, rfl⟩

/-- Resolving with a lookup that keeps no state. -/
theorem Folded.resolve_eq_ok {folded : Folded α} {lookup : Reference → Except ε κ}
    {e : LinearExpr α κ} (h : folded.resolve lookup = .ok e) :
    ∃ keys e₀, folded.asked.mapM lookup = .ok keys ∧ folded.result = .ok e₀ ∧
      e = ⟨keys.zip (e₀.terms.map (·.2)), e₀.constant⟩ := by
  rw [resolve_eq] at h
  split at h
  · simp at h
  · simp at h
  · rename_i keys e₀ hkeys hresult
    exact ⟨keys, e₀, hkeys, hresult, (Except.ok.inj h).symm⟩

/-- The value of an expression that has been resolved, by its keys and by what it was before. -/
theorem LinearExpr.value_zip {e : LinearExpr Rat Reference} {keys : List κ} (worth : κ → Rat) :
    (⟨keys.zip (e.terms.map (·.2)), e.constant⟩ : LinearExpr Rat κ).value worth =
      e.weigh (keys.map worth) := by
  obtain ⟨terms, constant⟩ := e
  simp only [value, weigh]
  congr 1
  induction terms generalizing keys with
  | nil => simp
  | cons term terms ih =>
    cases keys with
    | nil => simp
    | cons key keys => simp [ih]

/-- An expression over the keys of the references of its side has these keys, and the value
of the side. -/
theorem Side.fold_resolved {side : List (Term Rat)} {e₀ : LinearExpr Rat Reference}
    {keys : List κ} {e : LinearExpr Rat κ} (h : (fold side).result = .ok e₀)
    (hkeys : keys.length = (references side).length)
    (he : e = ⟨keys.zip (e₀.terms.map (·.2)), e₀.constant⟩) :
    e.terms.map (·.1) = keys ∧
      ∀ worth : κ → Rat, value? side (keys.map worth) = some (e.value worth) := by
  subst he
  have hlength : keys.length = e₀.terms.length := by
    rw [hkeys, ← fold_asked h, ← fold_terms h, List.length_map]
  refine ⟨List.map_fst_zip ?_, fun worth => ?_⟩
  · rw [List.length_map, hlength]
  · rw [LinearExpr.value_zip]
    exact fold_value h (by rw [List.length_map, hkeys])

/-- **A side and its expression mean the same**, by a lookup that keeps no state. -/
theorem Side.resolve_fold {side : List (Term Rat)} {lookup : Reference → Except ε κ}
    {e : LinearExpr Rat κ} (h : (fold side).resolve lookup = .ok e) :
    (references side).mapM lookup = .ok (e.terms.map (·.1)) ∧
      ∀ worth : κ → Rat, value? side ((e.terms.map (·.1)).map worth) = some (e.value worth) := by
  obtain ⟨keys, e₀, hkeys, hfold, he⟩ := Folded.resolve_eq_ok h
  rw [fold_asked hfold] at hkeys
  obtain ⟨hterms, hvalue⟩ := fold_resolved hfold (mapM_eq_ok_iff.1 hkeys).length_eq.symm he
  rw [hterms]
  exact ⟨hkeys, hvalue⟩

/-- **A side and its expression mean the same.** Whatever the lookup makes of the references,
the keys of the expression are those of the references, in order and one for each occurrence,
and whatever the keys are worth, the expression has the value of the side. -/
theorem Side.resolveM_fold {side : List (Term Rat)} {lookup : Reference → ExceptT ε (StateM σ) κ}
    {e : LinearExpr Rat κ} (h : Yields ((fold side).resolveM lookup) s e s') :
    Yields ((references side).mapM lookup) s (e.terms.map (·.1)) s' ∧
      ∀ worth : κ → Rat, value? side ((e.terms.map (·.1)).map worth) = some (e.value worth) := by
  obtain ⟨keys, e₀, hkeys, hfold, he⟩ := Folded.resolveM_yields h
  rw [fold_asked hfold] at hkeys
  obtain ⟨hterms, hvalue⟩ := fold_resolved hfold (length_of_yields_mapM hkeys) he
  rw [hterms]
  exact ⟨hkeys, hvalue⟩

/-- `2 * a.left - a.left / 4`, read from left to right. -/
def twice : List (Term Rat) :=
  [.constant 2, .operation .multiply, .reference ⟨"a", ["left"]⟩, .operation .subtract,
    .reference ⟨"a", ["left"]⟩, .operation .divide, .constant 4]

/-- A lookup that gives every occurrence of a reference a number of its own. -/
def numbered (_ : Reference) : ExceptT String (StateM ℕ) ℕ := do
  let n ← get
  set (n + 1)
  return n

theorem twice_resolved :
    Yields ((Side.fold twice).resolveM numbered) 0 ⟨[(0, 1 / 2), (1, -1 / 4)], 0⟩ 2 ∧
      Yields ((Side.references twice).mapM numbered) 0 [0, 1] 2 ∧
      ∀ worth : ℕ → Rat, Side.value? twice [worth 0, worth 1] =
        some (LinearExpr.value ⟨[(0, 1 / 2), (1, -1 / 4)], 0⟩ worth) := by
  have hfold : Yields ((Side.fold twice).resolveM numbered) 0 ⟨[(0, 1 / 2), (1, -1 / 4)], 0⟩ 2 := by
    unfold Yields
    decide +kernel
  exact ⟨hfold, Side.resolveM_fold hfold⟩

end Resolving

end Schematic
