import Schematic.Number.Scalar

/-!
# Anchors

Every box, and the canvas, has eight anchors: the edges, the centres and the extents
that equations speak of. Each anchor is a variable of the layout; a variable is known
by its index in a table of names.

* `VariableTable.intern`: the variable of a name, new or already there.
* `Anchors.intern`: the eight variables of an owner.
-/

namespace Schematic

/-- A quantity of a box or of the canvas. -/
inductive Anchor where
  | top
  | centerY
  | bottom
  | left
  | centerX
  | right
  | height
  | width
deriving DecidableEq, Repr

namespace Anchor

/-- All anchors, in the order in which their variables are numbered. -/
def all : List Anchor := [top, centerY, bottom, left, centerX, right, height, width]

/-- An anchor as it is written after the dot of a reference. -/
def text : Anchor → String
  | top => "top"
  | centerY => "centerY"
  | bottom => "bottom"
  | left => "left"
  | centerX => "centerX"
  | right => "right"
  | height => "height"
  | width => "width"

/-- The anchor that a text spells. -/
def ofText? (s : String) : Option Anchor := all.find? (·.text == s)

end Anchor

/-- A variable: its place in the table of names. -/
abbrev Variable := Nat

/-- The names of variables; a variable is the place of its name. -/
structure VariableTable where
  names : List String
deriving DecidableEq, Repr

namespace VariableTable

/-- A table without variables. -/
def empty : VariableTable := ⟨[]⟩

/-- The number of variables. -/
def size (table : VariableTable) : Nat := table.names.length

/-- The variable of a name. -/
def lookup (table : VariableTable) (name : String) : Option Variable :=
  table.names.findIdx? (· == name)

/-- The name of a variable; there is none behind the end of the table. -/
def name (table : VariableTable) (v : Variable) : String := table.names[v]?.getD ""

/-- The variable of a name, which is added if it is not there yet. -/
def intern (name : String) : StateM VariableTable Variable := fun table =>
  match table.lookup name with
  | some v => (v, table)
  | none => (table.size, ⟨table.names ++ [name]⟩)

end VariableTable

/-- The variables of the eight anchors of one owner. -/
structure Anchors where
  top : Variable
  centerY : Variable
  bottom : Variable
  left : Variable
  centerX : Variable
  right : Variable
  height : Variable
  width : Variable
deriving DecidableEq, Repr

namespace Anchors

/-- The variable of an anchor. -/
def get (anchors : Anchors) : Anchor → Variable
  | .top => anchors.top
  | .centerY => anchors.centerY
  | .bottom => anchors.bottom
  | .left => anchors.left
  | .centerX => anchors.centerX
  | .right => anchors.right
  | .height => anchors.height
  | .width => anchors.width

/-- The name of the variable of an anchor. -/
def variableName (owner : String) (anchor : Anchor) : String := owner ++ "." ++ anchor.text

/-- The anchors of an owner, whose variables are added to the table. -/
def intern (owner : String) : StateM VariableTable Anchors := do
  let fresh := fun anchor => VariableTable.intern (variableName owner anchor)
  let top ← fresh .top
  let centerY ← fresh .centerY
  let bottom ← fresh .bottom
  let left ← fresh .left
  let centerX ← fresh .centerX
  let right ← fresh .right
  let height ← fresh .height
  let width ← fresh .width
  return ⟨top, centerY, bottom, left, centerX, right, height, width⟩

end Anchors

end Schematic
