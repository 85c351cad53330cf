import Schematic.Geometry
import Schematic.Model.Anchor
import Schematic.Model.Style
import Schematic.Source.Equation
import Schematic.Source.Span

/-!
# The model of a diagram

A diagram has boxes, connectors between them, the styles boxes are drawn with and the
variables that place them. Boxes are kept by name, so all that is done box by box is
done in the order of the names.

* `Graph.addBox`: a box with variables of its own.
* `Graph.anchorsOf?`: the anchors that the head of a reference speaks of.
-/

namespace Schematic

/-- The head by which references speak of the canvas. -/
def canvasHead : String := "graph"

/-- The owner of the canvas's variables. No box has this name, since names hold no dots. -/
def canvasOwner : String := "."

/-- A box: its name, the text in it, the style it is drawn with and its anchors. -/
structure DiagramBox where
  id : String
  label : String
  style : Option String
  anchors : Anchors
deriving DecidableEq, Repr

/-- How an end of a connector is drawn. -/
inductive ArrowHead where
  | line
  | filledVee
deriving DecidableEq, Repr

namespace ArrowHead

/-- All ways to draw an end. -/
def all : List ArrowHead := [line, filledVee]

/-- The name of a way to draw an end. -/
def text : ArrowHead → String
  | line => "line"
  | filledVee => "filled_vee"

/-- The way to draw an end that a name stands for. -/
def ofText? (s : String) : Option ArrowHead := all.find? (·.text == s)

end ArrowHead

/-- A connector from one box to another. -/
structure Arrow (α : Type) where
  source : String
  target : String
  sourceHead : ArrowHead
  targetHead : ArrowHead
  lineWidth : α
deriving DecidableEq, Repr

/-- A plain connector of width one. -/
def Arrow.between {α : Type} [Scalar α] (source target : String) : Arrow α :=
  ⟨source, target, .line, .line, Scalar.one⟩

/-- The boxes, connectors, styles and variables of a diagram. -/
structure Graph (α : Type) where
  boxes : Std.TreeMap String DiagramBox
  /-- The connectors in the order of their declarations. -/
  arrows : List (Arrow α)
  styles : StyleSheet α
  /-- The anchors of the canvas. -/
  anchors : Anchors
  table : VariableTable

namespace Graph

variable {α : Type}

/-- The model with a canvas and nothing on it. -/
def empty : Graph α :=
  let (anchors, table) := Anchors.intern canvasOwner .empty
  ⟨∅, [], .empty, anchors, table⟩

/-- The boxes in the order of their names. -/
def boxList (g : Graph α) : List DiagramBox := g.boxes.toList.map (·.2)

/-- The box of a name. -/
def box? (g : Graph α) (id : String) : Option DiagramBox := g.boxes[id]?

/-- The model with another box, unless the name is taken. -/
def addBox (g : Graph α) (id label : String) (style : Option String) : Option (Graph α) :=
  if (g.box? id).isSome then none
  else
    let (anchors, table) := Anchors.intern id g.table
    some { g with boxes := g.boxes.insert id ⟨id, label, style, anchors⟩, table }

/-- The model with another connector behind the ones it has. -/
def addArrow (g : Graph α) (arrow : Arrow α) : Graph α :=
  { g with arrows := g.arrows ++ [arrow] }

/-- The model with a style. -/
def addStyle (g : Graph α) (style : BoxStyle α) : Graph α :=
  { g with styles := g.styles.insert style }

/-- The anchors that the head of a reference speaks of. -/
def anchorsOf? (g : Graph α) (head : String) : Option Anchors :=
  if head = canvasHead then some g.anchors else (g.box? head).map (·.anchors)

end Graph

/-- A diagram: its model and the equations that place its boxes. -/
structure Diagram (α : Type) where
  graph : Graph α
  equations : List (Located (Equation α))

end Schematic
