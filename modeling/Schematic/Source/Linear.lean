import Schematic.Number.Scalar
import Schematic.Source.Equation

/-!
# Linear expressions

One side of an equation is folded from left to right into a sum of scaled references
and a constant. Every step combines the value so far with the next operation and
term; steps that would leave linear arithmetic are refused.

* `Side.fold`: the expression of a side over its own references, or why there is none.
* `Folded.resolveM`, `Folded.resolve`: the same expression over what the references stand for.
* `Side.resolveWith`: the fold that looks for the key of a reference when it gets there.
* `Side.fold_terms`: on success the terms are the references that were asked for.
-/

namespace Schematic

/-- A sum of scaled keys and a constant. -/
structure LinearExpr (α κ : Type) where
  terms : List (κ × α)
  constant : α
deriving DecidableEq, Repr

namespace LinearExpr

variable {α κ : Type} [Scalar α]

/-- A constant alone. -/
def ofConstant (c : α) : LinearExpr α κ := ⟨[], c⟩

/-- A key alone, taken once. -/
def ofKey (key : κ) : LinearExpr α κ := ⟨[(key, Scalar.one)], Scalar.zero⟩

/-- The expression with every part multiplied by a factor. -/
def scale (e : LinearExpr α κ) (factor : α) : LinearExpr α κ :=
  ⟨e.terms.map fun (key, c) => (key, c * factor), e.constant * factor⟩

/-- The first expression and the second one multiplied by a sign. -/
def addSigned (e f : LinearExpr α κ) (sign : α) : LinearExpr α κ :=
  ⟨e.terms ++ f.terms.map fun (key, c) => (key, c * sign), e.constant + f.constant * sign⟩

end LinearExpr

/-- Why a side has no linear expression. -/
inductive SideFault where
  | empty
  | startsWithOperator
  | endsWithOperator
  | twoOperators
  | twoTerms
  | divisionByZero
  | divisionByReference
  | productOfReferences
deriving DecidableEq, Repr

/-- The fault in words. -/
def SideFault.message : SideFault → String
  | empty => "empty expression"
  | startsWithOperator => "expression starts with an operator"
  | endsWithOperator => "expression ends with an operator"
  | twoOperators => "two operators in a row"
  | twoTerms => "two terms without an operator between them"
  | divisionByZero => "division by zero"
  | divisionByReference => "division by a variable is not linear"
  | productOfReferences => "product of variables is not linear"

/-- The outcome of folding a side: its expression or its fault, and the references
whose meaning was asked for on the way, in order. -/
structure Folded (α : Type) where
  asked : List Reference
  result : Except SideFault (LinearExpr α Reference)

/-- The value of the terms read so far. -/
inductive Running (α : Type) where
  /-- No reference was read yet. -/
  | constant (value : α)
  | linear (expr : LinearExpr α Reference)

namespace Side

variable {α : Type} [Scalar α]

/-- The sign that addition or subtraction gives to its second operand. -/
def sign (op : Operation) : α := if op = .subtract then -Scalar.one else Scalar.one

/-- The value so far, combined with a constant. -/
def withConstant (value : Running α) (op : Operation) (c : α) : Except SideFault (Running α) :=
  match value, op with
  | .constant b, .add => .ok (.constant (b + c))
  | .constant b, .subtract => .ok (.constant (b - c))
  | .constant b, .multiply => .ok (.constant (b * c))
  | .constant b, .divide =>
    if c == Scalar.zero then .error .divisionByZero else .ok (.constant (b / c))
  | .linear e, .add | .linear e, .subtract =>
    .ok (.linear (e.addSigned (.ofConstant c) (sign op)))
  | .linear e, .multiply => .ok (.linear (e.scale c))
  | .linear e, .divide =>
    if c == Scalar.zero then .error .divisionByZero
    else .ok (.linear (e.scale (Scalar.one / c)))

/-- The value so far, combined with a reference. -/
def withReference (value : Running α) (op : Operation) (name : Reference) :
    Except SideFault (LinearExpr α Reference) :=
  match value, op with
  | .constant b, .add | .constant b, .subtract =>
    .ok ((LinearExpr.ofConstant b).addSigned (.ofKey name) (sign op))
  | .constant b, .multiply => .ok ((LinearExpr.ofKey name).scale b)
  | .linear e, .add | .linear e, .subtract => .ok (e.addSigned (.ofKey name) (sign op))
  | .linear _, .multiply => .error .productOfReferences
  | _, .divide => .error .divisionByReference

/-- Whether a combination asks what the reference means. With a reference before it,
a product or a quotient is refused without asking. -/
def asks (value : Running α) (op : Operation) : Bool :=
  match value, op with
  | .linear _, .multiply | .linear _, .divide => false
  | _, _ => true

/-- The expression of a value. -/
def expr : Running α → LinearExpr α Reference
  | .constant c => .ofConstant c
  | .linear e => e

/-- Fold the terms after a value. -/
def foldFrom (value : Running α) : List (Term α) → Folded α
  | [] => ⟨[], .ok (expr value)⟩
  | .operation op :: .constant c :: rest =>
    match withConstant value op c with
    | .ok value => foldFrom value rest
    | .error fault => ⟨[], .error fault⟩
  | .operation op :: .reference name :: rest =>
    let asked := if asks value op then [name] else []
    match withReference value op name with
    | .ok e =>
      let folded := foldFrom (.linear e) rest
      ⟨asked ++ folded.asked, folded.result⟩
    | .error fault => ⟨asked, .error fault⟩
  | .operation _ :: .operation _ :: _ => ⟨[], .error .twoOperators⟩
  | [.operation _] => ⟨[], .error .endsWithOperator⟩
  | .constant _ :: _ | .reference _ :: _ => ⟨[], .error .twoTerms⟩

/-- **Fold a side** from left to right. -/
def fold : List (Term α) → Folded α
  | [] => ⟨[], .error .empty⟩
  | .operation _ :: _ => ⟨[], .error .startsWithOperator⟩
  | .constant c :: rest => foldFrom (.constant c) rest
  | .reference name :: rest =>
    let folded := foldFrom (.linear (.ofKey name)) rest
    ⟨name :: folded.asked, folded.result⟩

end Side

/-- Why a side has no expression over what its references stand for. -/
inductive ResolveError (ε : Type) where
  | fault (fault : SideFault)
  | lookup (error : ε)
deriving DecidableEq, Repr

namespace Folded

variable {α κ ε : Type}

/-- The references asked for before the first one that is refused, and that one. -/
def consulted (folded : Folded α) (known : Reference → Bool) : List Reference :=
  folded.asked.takeWhile known ++ (folded.asked.dropWhile known).take 1

/-- **Resolve** the references in the order in which they were asked for, with a lookup
that may keep a state between them. The first refusal is the error, even if the side has a
fault further right. -/
def resolveM {m : Type → Type} [Monad m] (folded : Folded α) (lookup : Reference → ExceptT ε m κ) :
    ExceptT (ResolveError ε) m (LinearExpr α κ) := do
  let keys ← (folded.asked.mapM lookup).adapt .lookup
  match folded.result with
  | .error fault => throw (.fault fault)
  | .ok e => return ⟨keys.zip (e.terms.map (·.2)), e.constant⟩

/-- Resolve the references with a lookup that keeps no state. -/
def resolve (folded : Folded α) (lookup : Reference → Except ε κ) :
    Except (ResolveError ε) (LinearExpr α κ) :=
  folded.resolveM (m := Id) lookup

theorem mapM_id (lookup : Reference → Except ε κ) (names : List Reference) :
    List.mapM (m := ExceptT ε Id) lookup names = (names.mapM lookup : Except ε (List κ)) := by
  induction names with
  | nil => rfl
  | cons name names ih =>
    rw [List.mapM_cons, List.mapM_cons, ← ih]
    cases lookup name with
    | error error => rfl
    | ok key => cases List.mapM (m := ExceptT ε Id) lookup names <;> rfl

/-- Without a state to keep, either all the keys are found or the first refusal counts. -/
theorem resolve_eq (folded : Folded α) (lookup : Reference → Except ε κ) :
    folded.resolve lookup = match folded.asked.mapM lookup, folded.result with
      | .error error, _ => .error (.lookup error)
      | .ok _, .error fault => .error (.fault fault)
      | .ok keys, .ok e => .ok ⟨keys.zip (e.terms.map (·.2)), e.constant⟩ := by
  unfold resolve resolveM
  rw [mapM_id]
  cases (folded.asked.mapM lookup : Except ε (List κ)) <;> cases folded.result <;> rfl

end Folded

namespace Side

section OnTheWay

variable {α κ ε : Type} [Scalar α] {m : Type → Type} [Monad m]

/-- Fold the terms after a value whose references have keys. The key of a reference is looked
for when its turn comes, unless the combination is refused without asking. -/
def resolveFrom (lookup : Reference → ExceptT ε m κ) (value : Running α) (keys : List κ) :
    List (Term α) → ExceptT (ResolveError ε) m (LinearExpr α κ)
  | [] => return ⟨keys.zip ((expr value).terms.map (·.2)), (expr value).constant⟩
  | .operation op :: .constant c :: rest =>
    match withConstant value op c with
    | .ok value => resolveFrom lookup value keys rest
    | .error fault => throw (.fault fault)
  | .operation op :: .reference name :: rest =>
    if asks value op then do
      let key ← (lookup name).adapt .lookup
      match withReference value op name with
      | .ok e => resolveFrom lookup (.linear e) (keys ++ [key]) rest
      | .error fault => throw (.fault fault)
    else
      match withReference value op name with
      | .ok e => resolveFrom lookup (.linear e) keys rest
      | .error fault => throw (.fault fault)
  | .operation _ :: .operation _ :: _ => throw (.fault .twoOperators)
  | [.operation _] => throw (.fault .endsWithOperator)
  | .constant _ :: _ | .reference _ :: _ => throw (.fault .twoTerms)

/-- **Fold a side over keys**, from left to right and each key looked for on the way. -/
def resolveWith (lookup : Reference → ExceptT ε m κ) :
    List (Term α) → ExceptT (ResolveError ε) m (LinearExpr α κ)
  | [] => throw (.fault .empty)
  | .operation _ :: _ => throw (.fault .startsWithOperator)
  | .constant c :: rest => resolveFrom lookup (.constant c) [] rest
  | .reference name :: rest => do
    let key ← (lookup name).adapt .lookup
    resolveFrom lookup (.linear (.ofKey name)) [key] rest

end OnTheWay

variable {α : Type} [Scalar α]

theorem asks_of_withReference {value : Running α} {op : Operation} {name : Reference}
    {e : LinearExpr α Reference} (h : withReference value op name = .ok e) :
    asks value op = true := by
  cases value <;> cases op <;> simp_all [withReference, asks]

theorem withReference_keys {value : Running α} {op : Operation} {name : Reference}
    {e : LinearExpr α Reference} (h : withReference value op name = .ok e) :
    e.terms.map (·.1) = (expr value).terms.map (·.1) ++ [name] := by
  cases value <;> cases op <;>
    simp [withReference, expr, LinearExpr.addSigned, LinearExpr.scale, LinearExpr.ofKey,
      LinearExpr.ofConstant] at h ⊢ <;> subst h <;> simp

theorem withConstant_keys {value next : Running α} {op : Operation} {c : α}
    (h : withConstant value op c = .ok next) :
    (expr next).terms.map (·.1) = (expr value).terms.map (·.1) := by
  cases value <;> cases op <;>
    simp [withConstant] at h <;>
    (try split at h) <;>
    simp_all [expr, LinearExpr.addSigned, LinearExpr.scale, LinearExpr.ofConstant] <;>
    subst h <;> simp [Function.comp_def]

theorem foldFrom_keys (value : Running α) (terms : List (Term α)) {e : LinearExpr α Reference}
    (h : (foldFrom value terms).result = .ok e) :
    e.terms.map (·.1) = (expr value).terms.map (·.1) ++ (foldFrom value terms).asked := by
  fun_induction foldFrom value terms with
  | case1 value => simp_all
  | case2 value op c rest next hc ih => simp_all [withConstant_keys hc]
  | case3 => simp at h
  | case4 value op name rest asked e' he folded ih =>
    have hk := withReference_keys he
    have ha : asked = [name] := by simp [asked, asks_of_withReference he]
    have := ih h
    simp only [expr] at this
    simp [this, hk, ha]
    rfl
  | _ => simp at h

/-- **The terms of a folded side** are the references it asked for, in order and one
for each occurrence. -/
theorem fold_terms {terms : List (Term α)} {e : LinearExpr α Reference}
    (h : (fold terms).result = .ok e) : e.terms.map (·.1) = (fold terms).asked := by
  unfold fold at h ⊢
  split at h <;> try simp at h
  · simpa [expr, LinearExpr.ofConstant] using foldFrom_keys _ _ h
  · simpa [expr, LinearExpr.ofKey] using foldFrom_keys _ _ h

end Side

end Schematic
