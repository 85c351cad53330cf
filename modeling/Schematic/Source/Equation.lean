import Schematic.Source.Token

/-!
# Equations

A constraint relates two sides, each a list of terms and operations as they stand in
the source. Sides are read from left to right, without precedence.

* `Term`, `Part`, `Equation`: the pieces of a constraint.
* `Equation.parts`: the equation as one list of parts.
* `Equation.text`: its written form, parts with blanks between them.
-/

namespace Schematic

/-- How the two sides of an equation compare. -/
inductive Relation where
  | less
  | lessOrEqual
  | equal
  | greaterOrEqual
  | greater
deriving DecidableEq, Repr

/-- The written form of a relation. -/
def Relation.text : Relation → String
  | less => "<"
  | lessOrEqual => "<="
  | equal => "=="
  | greaterOrEqual => ">="
  | greater => ">"

/-- The four operations of arithmetic. -/
inductive Operation where
  | add
  | subtract
  | multiply
  | divide
deriving DecidableEq, Repr

/-- The written form of an operation. -/
def Operation.text : Operation → String
  | add => "+"
  | subtract => "-"
  | multiply => "*"
  | divide => "/"

/-- A dotted reference such as `a.left`: a name and the names after its dots. -/
structure Reference where
  head : String
  tail : List String
deriving DecidableEq, Repr

/-- The names of a reference with dots between them. -/
def Reference.text (r : Reference) : String := ".".intercalate (r.head :: r.tail)

/-- A constant, an operation or a reference on one side of an equation. -/
inductive Term (α : Type) where
  | constant (value : α)
  | operation (op : Operation)
  | reference (name : Reference)
deriving DecidableEq, Repr

/-- The written form of a term. -/
def Term.text {α : Type} [Numeral α] : Term α → String
  | constant value => Numeral.plain value
  | operation op => op.text
  | reference name => name.text

/-- A part of an equation before its sides are told apart. -/
inductive Part (α : Type) where
  | term (term : Term α)
  | relation (relation : Relation)
  | comment (text : String)
deriving DecidableEq, Repr

/-- The written form of a part. -/
def Part.text {α : Type} [Numeral α] : Part α → String
  | term t => t.text
  | relation r => r.text
  | comment text => "//" ++ text

/-- The written form of parts: one blank between any two of them. -/
def Part.listText {α : Type} [Numeral α] (parts : List (Part α)) : String :=
  " ".intercalate (parts.map Part.text)

/-- The part that a token stands for, if it stands for a whole one. -/
def Part.ofToken? {α : Type} : Token α → Option (Part α)
  | .number value => some (.term (.constant value))
  | .plus => some (.term (.operation .add))
  | .minus => some (.term (.operation .subtract))
  | .star => some (.term (.operation .multiply))
  | .slash => some (.term (.operation .divide))
  | .less => some (.relation .less)
  | .lessOrEqual => some (.relation .lessOrEqual)
  | .equalEqual => some (.relation .equal)
  | .equals => some (.relation .equal)
  | .greaterOrEqual => some (.relation .greaterOrEqual)
  | .greater => some (.relation .greater)
  | _ => none

/-- Two sides, their relation and the comment that ends the line. -/
structure Equation (α : Type) where
  relation : Relation
  left : List (Term α)
  right : List (Term α)
  comment : Option String
deriving DecidableEq, Repr

namespace Equation

variable {α : Type}

/-- The equation as one list of parts. -/
def parts (e : Equation α) : List (Part α) :=
  e.left.map .term ++ .relation e.relation :: e.right.map .term ++
    (e.comment.map .comment).toList

/-- The references on either side, from left to right. -/
def references (e : Equation α) : List Reference :=
  (e.left ++ e.right).filterMap fun
    | .reference name => some name
    | _ => none

/-- The written form of an equation. -/
def text [Numeral α] (e : Equation α) : String := Part.listText e.parts

end Equation

end Schematic
