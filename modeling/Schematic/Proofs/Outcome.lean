import Mathlib
import Schematic.Model.Build
import Schematic.Proofs.Meaning
import Schematic.Source.Parsing

/-!
# Outcomes

What steps that may be refused come to, one after the other: either all of them are taken, or
one is the first that is not.

* `eq_ok_of_toOption`, `exists_built`: what running shows.
* `foldlM_eq_ok_iff`: a fold of steps that each take what they accept.
* `foldlM_fresh_eq_ok_iff`: a fold of steps that each take an entry under a new key.
* `exists_of_foldlM_eq_error`: the refusal of a fold is that of one of its steps.
* `Fails`: the refusal of a step that keeps a state.
* `FirstRefused`: the first refusal of a lookup.
* `mapM_yields_or_refused`: a lookup finds all keys, or there is a first refusal.
-/

namespace Schematic

variable {ε ε' σ β γ : Type}

@[simp] theorem except_throw (error : ε) : (throw error : Except ε β) = .error error := rfl

@[simp] theorem except_pure (b : β) : (pure b : Except ε β) = .ok b := rfl

@[simp] theorem except_error_bind (error : ε) (f : β → Except ε γ) :
    (Except.error error >>= f) = .error error := rfl

@[simp] theorem except_ok_bind (b : β) (f : β → Except ε γ) : (Except.ok b >>= f) = f b := rfl

theorem eq_ok_of_toOption {x : Except ε β} {b : β} (h : x.toOption = some b) : x = .ok b := by
  cases x with
  | error error => simp [Except.toOption] at h
  | ok b' =>
    obtain rfl := Option.some.inj h
    rfl

/-- A source that is read and built by running both. -/
theorem exists_built {α : Type} [Scalar α] [Numeral α] (source : String)
    (h : ((parse (α := α) source).toOption.bind fun d => d.build.toOption).isSome) :
    ∃ (d : Document α) (diagram : Diagram α), parse source = .ok d ∧ d.build = .ok diagram := by
  obtain ⟨diagram, hdiagram⟩ := Option.isSome_iff_exists.1 h
  obtain ⟨d, hd, hbuild⟩ := Option.bind_eq_some_iff.1 hdiagram
  exact ⟨d, diagram, eq_ok_of_toOption hd, eq_ok_of_toOption hbuild⟩

theorem except_bind_eq_error {x : Except ε β} {f : β → Except ε γ} {error : ε} :
    x >>= f = .error error ↔ x = .error error ∨ ∃ b, x = .ok b ∧ f b = .error error := by
  cases x <;> simp

/-! ### Lists -/

/-- Lists that agree in one respect agree in all that follows from it. -/
theorem map_eq_map_of {δ ζ : Type} {f : β → δ} {f' : γ → δ} {g : β → ζ} {g' : γ → ζ} {xs : List β}
    {ys : List γ} (h : xs.map f = ys.map f') (hg : ∀ x ∈ xs, ∀ y ∈ ys, f x = f' y → g x = g' y) :
    xs.map g = ys.map g' := by
  induction xs generalizing ys with
  | nil =>
    obtain rfl := List.map_eq_nil_iff.1 h.symm
    rfl
  | cons x xs ih =>
    obtain ⟨y, ys, rfl, hy, hys⟩ := List.map_eq_cons_iff.1 h.symm
    rw [List.map_cons, List.map_cons, hg x List.mem_cons_self y List.mem_cons_self hy.symm]
    refine congrArg _ (ih hys.symm fun x' hx' y' hy' => ?_)
    exact hg x' (List.mem_cons_of_mem x hx') y' (List.mem_cons_of_mem y hy')

/-! ### Folds -/

/-- **A fold of steps** that take what they accept, as long as an invariant is kept. -/
theorem foldlM_eq_ok_iff_of_invariant (I : σ → Prop) (accepts : β → Prop) (next : σ → β → σ)
    {f : σ → β → Except ε σ}
    (hstep : ∀ s, I s → ∀ x s', f s x = .ok s' ↔ accepts x ∧ next s x = s')
    (hnext : ∀ s x, I s → I (next s x)) {xs : List β} {s s' : σ} (hs : I s) :
    xs.foldlM f s = .ok s' ↔ (∀ x ∈ xs, accepts x) ∧ xs.foldl next s = s' := by
  induction xs generalizing s with
  | nil => simp
  | cons x xs ih =>
    rw [List.foldlM_cons, except_bind_eq_ok, List.forall_mem_cons, List.foldl_cons]
    constructor
    · rintro ⟨t, ht, hrest⟩
      obtain ⟨hx, rfl⟩ := (hstep s hs x t).1 ht
      obtain ⟨hxs, hs'⟩ := (ih (hnext s x hs)).1 hrest
      exact ⟨⟨hx, hxs⟩, hs'⟩
    · rintro ⟨⟨hx, hxs⟩, hs'⟩
      exact ⟨next s x, (hstep s hs x _).2 ⟨hx, rfl⟩, (ih (hnext s x hs)).2 ⟨hxs, hs'⟩⟩

/-- A fold of steps that take what they accept, whatever was taken before. -/
theorem foldlM_eq_ok_iff {f : σ → β → Except ε σ} {accepts : β → Prop} {next : σ → β → σ}
    (hstep : ∀ s x s', f s x = .ok s' ↔ accepts x ∧ next s x = s') {xs : List β} {s s' : σ} :
    xs.foldlM f s = .ok s' ↔ (∀ x ∈ xs, accepts x) ∧ xs.foldl next s = s' :=
  foldlM_eq_ok_iff_of_invariant (fun _ => True) accepts next (fun s _ => hstep s)
    (fun _ _ _ => trivial) trivial

/-- What steps that each take a key have taken. -/
theorem taken_foldl_iff {κ : Type} (taken : σ → κ → Prop) (key : β → κ) {next : σ → β → σ}
    (hnext : ∀ s x k, taken (next s x) k ↔ k = key x ∨ taken s k) {xs : List β} {s : σ} {k : κ} :
    taken (xs.foldl next s) k ↔ k ∈ xs.map key ∨ taken s k := by
  induction xs generalizing s with
  | nil => simp
  | cons x xs ih => rw [List.foldl_cons, ih, hnext, List.map_cons, List.mem_cons, or_left_comm, or_assoc]

/-- **A fold of steps** that each take an entry under a key of its own, as long as what was taken
before keeps an invariant. -/
theorem foldlM_fresh_eq_ok_iff {κ : Type} (I : σ → Prop) (taken : σ → κ → Prop) (key : β → κ)
    (accepts : β → Prop) (next : σ → β → σ) {f : σ → β → Except ε σ} {xs : List β}
    (hstep : ∀ s, I s → ∀ x ∈ xs, ∀ s',
      f s x = .ok s' ↔ (accepts x ∧ ¬taken s (key x)) ∧ next s x = s')
    (hnext : ∀ s, I s → ∀ x ∈ xs, I (next s x) ∧ ∀ k, taken (next s x) k ↔ k = key x ∨ taken s k)
    {s s' : σ} (hs : I s) : xs.foldlM f s = .ok s' ↔
      ((∀ x ∈ xs, accepts x) ∧ (xs.map key).Nodup ∧ ∀ x ∈ xs, ¬taken s (key x)) ∧
        xs.foldl next s = s' := by
  induction xs generalizing s with
  | nil => simp
  | cons x xs ih =>
    obtain ⟨hI, htaken⟩ := hnext s hs x List.mem_cons_self
    have hrest := ih (fun s hs y hy => hstep s hs y (List.mem_cons_of_mem x hy))
      (fun s hs y hy => hnext s hs y (List.mem_cons_of_mem x hy)) hI
    rw [List.foldlM_cons, except_bind_eq_ok, List.foldl_cons]
    simp only [hstep s hs x List.mem_cons_self, List.forall_mem_cons, List.map_cons, List.nodup_cons,
      List.mem_map]
    constructor
    · rintro ⟨t, ⟨⟨hx, hfree⟩, rfl⟩, ht⟩
      obtain ⟨⟨hxs, hnodup, hfresh⟩, hs'⟩ := hrest.1 ht
      refine ⟨⟨⟨hx, hxs⟩, ⟨?_, hnodup⟩, hfree, fun y hy hy' => ?_⟩, hs'⟩
      · rintro ⟨y, hy, hkey⟩
        exact hfresh y hy ((htaken _).2 (.inl hkey))
      · exact hfresh y hy ((htaken _).2 (.inr hy'))
    · rintro ⟨⟨⟨hx, hxs⟩, ⟨hnew, hnodup⟩, hfree, hfresh⟩, hs'⟩
      refine ⟨next s x, ⟨⟨hx, hfree⟩, rfl⟩, hrest.2 ⟨⟨hxs, hnodup, fun y hy hy' => ?_⟩, hs'⟩⟩
      rcases (htaken _).1 hy' with hkey | hy'
      · exact hnew ⟨y, hy, hkey⟩
      · exact hfresh y hy hy'

theorem exists_of_foldlM_eq_error {f : σ → β → Except ε σ} {xs : List β} {s : σ} {error : ε}
    (h : xs.foldlM f s = .error error) : ∃ t, ∃ x ∈ xs, f t x = .error error := by
  induction xs generalizing s with
  | nil => simp at h
  | cons x xs ih =>
    rw [List.foldlM_cons, except_bind_eq_error] at h
    rcases h with hx | ⟨t, -, h⟩
    · exact ⟨s, x, List.mem_cons_self, hx⟩
    · obtain ⟨t', y, hy, herror⟩ := ih h
      exact ⟨t', y, List.mem_cons_of_mem x hy, herror⟩

theorem exists_of_mapM_eq_error {f : β → Except ε γ} {xs : List β} {error : ε}
    (h : xs.mapM f = .error error) : ∃ x ∈ xs, f x = .error error := by
  induction xs with
  | nil => simp at h
  | cons x xs ih =>
    rw [List.mapM_cons, except_bind_eq_error] at h
    rcases h with hx | ⟨y, -, h⟩
    · exact ⟨x, List.mem_cons_self, hx⟩
    rw [except_bind_eq_error] at h
    rcases h with hxs | ⟨ys, -, h⟩
    · obtain ⟨x', hmem, hx'⟩ := ih hxs
      exact ⟨x', List.mem_cons_of_mem x hmem, hx'⟩
    · simp at h

/-- Steps that come to the same up to names come to the same one after the other. -/
theorem mapM_map_eq_mapError {δ : Type} {f : β → Except ε γ} {f' : β → Except ε' δ} {name : γ → δ}
    {fault : ε' → ε} (h : ∀ x, (f x).map name = (f' x).mapError fault) (xs : List β) :
    (xs.mapM f).map (List.map name) = (xs.mapM f').mapError fault := by
  induction xs with
  | nil => rfl
  | cons x xs ih =>
    have hx := h x
    rw [List.mapM_cons, List.mapM_cons]
    cases hf : f x <;> cases hf' : f' x <;> rw [hf, hf'] at hx
    case error.error error error' =>
      obtain rfl : error = fault error' := Except.error.inj hx
      rfl
    case error.ok => cases hx
    case ok.error => cases hx
    case ok.ok y z =>
      obtain rfl : name y = z := Except.ok.inj hx
      cases hxs : xs.mapM f <;> cases hxs' : xs.mapM f' <;> rw [hxs, hxs'] at ih
      case error.error error error' =>
        obtain rfl : error = fault error' := Except.error.inj ih
        rfl
      case error.ok => cases ih
      case ok.error => cases ih
      case ok.ok ys zs =>
        obtain rfl : ys.map name = zs := Except.ok.inj ih
        rfl

/-! ### Renamed refusals -/

section Adapt

variable {m : Type → Type} [Monad m] [LawfulMonad m]

theorem adapt_pure (b : β) (g : ε → ε') : (pure b : ExceptT ε m β).adapt g = pure b := by
  apply ExceptT.ext
  simp [Except.mapError]

theorem adapt_bind (x : ExceptT ε m β) (f : β → ExceptT ε m γ) (g : ε → ε') :
    (x >>= f).adapt g = x.adapt g >>= fun b => (f b).adapt g := by
  apply ExceptT.ext
  simp only [ExceptT.run_adapt, ExceptT.run_bind, map_bind, bind_map_left]
  congr 1
  funext outcome
  cases outcome <;> simp [Except.mapError]

end Adapt

/-! ### Steps that keep a state -/

variable {s s' t : σ}

/-- The refusal of a step and the state it leaves, if it is refused. -/
def Fails (x : ExceptT ε (StateM σ) β) (s : σ) (error : ε) (s' : σ) : Prop :=
  Id.run (x.run.run s) = (.error error, s')

@[simp] theorem not_fails_pure {b : β} {error : ε} :
    ¬Fails (pure b : ExceptT ε (StateM σ) β) s error s' := by
  simp [Fails]

/-- A step is taken or refused. -/
theorem yields_or_fails (x : ExceptT ε (StateM σ) β) (s : σ) :
    (∃ b s', Yields x s b s') ∨ ∃ error s', Fails x s error s' := by
  unfold Yields Fails
  rcases (x.run.run s).run with ⟨error | b, s'⟩
  · exact .inr ⟨error, s', rfl⟩
  · exact .inl ⟨b, s', rfl⟩

theorem fails_bind {x : ExceptT ε (StateM σ) β} {f : β → ExceptT ε (StateM σ) γ} {error : ε} :
    Fails (x >>= f) s error s' ↔
      Fails x s error s' ∨ ∃ b t, Yields x s b t ∧ Fails (f b) t error s' := by
  simp only [Fails, Yields, ExceptT.run_bind, StateT.run_bind, Id.run_bind]
  rcases (x.run.run s).run with ⟨fault | b, t⟩ <;> simp

theorem fails_adapt {x : ExceptT ε (StateM σ) β} {f : ε → ε'} {error : ε} (h : Fails x s error s') :
    Fails (x.adapt f) s (f error) s' := by
  unfold Fails at h ⊢
  rw [ExceptT.run_adapt]
  simp [h, Except.mapError]

/-- **The first refusal** of a lookup: it finds keys for the names before one name, and refuses
that one. -/
def FirstRefused (lookup : β → ExceptT ε (StateM σ) γ) (names : List β) (s : σ) (error : ε)
    (s' : σ) : Prop :=
  ∃ before name after keys t, names = before ++ name :: after ∧
    Yields (before.mapM lookup) s keys t ∧ Fails (lookup name) t error s'

/-- **A lookup finds all keys, or it refuses a first one.** -/
theorem mapM_yields_or_refused (lookup : β → ExceptT ε (StateM σ) γ) (names : List β) (s : σ) :
    (∃ keys s', Yields (names.mapM lookup) s keys s') ∨
      ∃ error s', FirstRefused lookup names s error s' ∧ Fails (names.mapM lookup) s error s' := by
  induction names generalizing s with
  | nil => exact .inl ⟨[], s, by simp⟩
  | cons name names ih =>
    simp only [List.mapM_cons, yields_bind, fails_bind, yields_pure, not_fails_pure]
    rcases yields_or_fails (lookup name) s with ⟨key, t, hkey⟩ | ⟨error, s', hfails⟩
    · rcases ih t with ⟨keys, s', hkeys⟩ | ⟨error, s', ⟨before, name', after, keys, u, hnames, hbefore,
        hname'⟩, hfails⟩
      · exact .inl ⟨key :: keys, s', key, t, hkey, keys, s', hkeys, rfl, rfl⟩
      · refine .inr ⟨error, s', ⟨name :: before, name', after, key :: keys, u, ?_, ?_, hname'⟩, ?_⟩
        · rw [hnames, List.cons_append]
        · simp only [List.mapM_cons, yields_bind, yields_pure]
          exact ⟨key, t, hkey, keys, u, hbefore, rfl, rfl⟩
        · exact .inr ⟨key, t, hkey, .inl hfails⟩
    · refine .inr ⟨error, s', ⟨[], name, names, [], s, rfl, ?_, hfails⟩, .inl hfails⟩
      simp

end Schematic
