import Schematic.Source.Linear

/-!
# Constraints

What is asked of the variables of a layout: linear expressions compared with each
other. What is required has to hold; a preference only picks among the layouts that
the requirements leave open, by the least sum of differences.

* `Constraint.text`: the written form of a constraint over names.
-/

namespace Schematic

/-- The comparisons that a layout can be asked for. -/
inductive Comparison where
  | lessOrEqual
  | equal
  | greaterOrEqual
deriving DecidableEq, Repr

/-- The written form of a comparison. -/
def Comparison.text : Comparison → String
  | lessOrEqual => "<="
  | equal => "=="
  | greaterOrEqual => ">="

/-- A comparison of two expressions over keys, or a preference that they be equal. -/
inductive Constraint (α κ : Type) where
  | required (left : LinearExpr α κ) (comparison : Comparison) (right : LinearExpr α κ)
  | preferred (left right : LinearExpr α κ)
deriving DecidableEq, Repr

namespace LinearExpr

variable {α κ ξ : Type}

/-- The expression over other keys. -/
def mapKeys (f : κ → ξ) (e : LinearExpr α κ) : LinearExpr α ξ :=
  ⟨e.terms.map fun (key, c) => (f key, c), e.constant⟩

/-- A scaled name. A factor of one is not written. -/
def termText [Scalar α] [Numeral α] (name : String) (factor : α) : String :=
  if factor == Scalar.one then name else Numeral.plain factor ++ " * " ++ name

/-- A text followed by a summand; before the first one there is nothing to add to. -/
def plusText (text summand : String) : String :=
  if text.isEmpty then summand else text ++ " + " ++ summand

/-- The written form of an expression: scaled names and a constant with `+` between
them. A constant of zero is written only if nothing else is. -/
def text [Scalar α] [Numeral α] (e : LinearExpr α String) : String :=
  let scaled := e.terms.foldl (fun text (name, c) => plusText text (termText name c)) ""
  if e.constant == Scalar.zero && !scaled.isEmpty then scaled
  else plusText scaled (Numeral.plain e.constant)

end LinearExpr

namespace Constraint

variable {α κ ξ : Type}

/-- The constraint over other keys. -/
def mapKeys (f : κ → ξ) : Constraint α κ → Constraint α ξ
  | required left comparison right => .required (left.mapKeys f) comparison (right.mapKeys f)
  | preferred left right => .preferred (left.mapKeys f) (right.mapKeys f)

/-- The written form of a constraint over names. -/
def text [Scalar α] [Numeral α] : Constraint α String → String
  | required left comparison right => left.text ++ " " ++ comparison.text ++ " " ++ right.text
  | preferred left right => left.text ++ " == " ++ right.text ++ " (weak)"

end Constraint

end Schematic
