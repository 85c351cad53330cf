import Schematic.Model.Build
import Schematic.Settings

/-!
# What a layout has to satisfy

Every box asks for the same: centres between edges, a margin to the canvas, and edges
as far apart as its label needs. The canvas starts at the origin. Equations come last.
Boxes prefer to lie near the origin and the canvas prefers to be small.

* `Anchors.boxConstraints`, `Anchors.canvasConstraints`: what boxes and canvas ask for.
* `Diagram.equationConstraint`: what an equation asks for.
* `Diagram.constraints`: all of it, in order.
-/

namespace Schematic

variable {α : Type} [Scalar α]

namespace Placement

/-- A variable and a distance. -/
def shifted (v : Variable) (distance : α) : LinearExpr α Variable := ⟨[(v, Scalar.one)], distance⟩

/-- The first variable less the second one. -/
def difference (a b : Variable) : LinearExpr α Variable :=
  ⟨[(a, Scalar.one), (b, -Scalar.one)], Scalar.zero⟩

/-- The middle of two variables. -/
def middle (a b : Variable) : LinearExpr α Variable :=
  ⟨[(a, Scalar.half Scalar.one), (b, Scalar.half Scalar.one)], Scalar.zero⟩

/-- A variable alone. -/
def var (v : Variable) : LinearExpr α Variable := .ofKey v

/-- A constant alone. -/
def const (c : α) : LinearExpr α Variable := .ofConstant c

/-- The left side is at most the right one. -/
def le (left right : LinearExpr α Variable) : Constraint α Variable :=
  .required left .lessOrEqual right

/-- The left side is at least the right one. -/
def ge (left right : LinearExpr α Variable) : Constraint α Variable :=
  .required left .greaterOrEqual right

/-- The sides are equal. -/
def eq (left right : LinearExpr α Variable) : Constraint α Variable :=
  .required left .equal right

end Placement

open Placement

/-- What a box asks for, given the size of its label and the margin to the canvas. -/
def Anchors.boxConstraints (b canvas : Anchors) (size : Size α) (margin : α) :
    List (Constraint α Variable) :=
  [le (var b.left) (var b.centerX),
    le (var b.centerX) (var b.right),
    le (var b.top) (var b.centerY),
    le (var b.centerY) (var b.bottom),
    ge (var b.left) (shifted canvas.left margin),
    ge (var b.top) (shifted canvas.top margin),
    le (var b.right) (shifted canvas.right (-margin)),
    le (var b.bottom) (shifted canvas.bottom (-margin)),
    ge (var b.height) (const Scalar.zero),
    ge (var b.height) (const size.height),
    ge (var b.width) (const Scalar.zero),
    ge (var b.width) (const size.width),
    eq (var b.bottom) (shifted b.top size.height),
    eq (var b.centerY) (shifted b.top (Scalar.half size.height)),
    eq (var b.right) (shifted b.left size.width),
    eq (var b.centerX) (shifted b.left (Scalar.half size.width)),
    eq (var b.height) (difference b.bottom b.top),
    eq (var b.width) (difference b.right b.left),
    .preferred (var b.left) (var canvas.left),
    .preferred (var b.top) (var canvas.top)]

/-- What the canvas asks for. -/
def Anchors.canvasConstraints (canvas : Anchors) : List (Constraint α Variable) :=
  [eq (var canvas.left) (const Scalar.zero),
    le (var canvas.left) (var canvas.right),
    le (var canvas.centerX) (var canvas.right),
    eq (var canvas.top) (const Scalar.zero),
    le (var canvas.top) (var canvas.centerY),
    le (var canvas.centerY) (var canvas.bottom),
    eq (var canvas.height) (difference canvas.bottom canvas.top),
    eq (var canvas.width) (difference canvas.right canvas.left),
    eq (var canvas.centerX) (middle canvas.left canvas.right),
    eq (var canvas.centerY) (middle canvas.top canvas.bottom),
    .preferred (var canvas.width) (const Scalar.zero),
    .preferred (var canvas.height) (const Scalar.zero)]

/-- The comparison that a relation asks for. Layouts are closed, so strict relations ask
for none. -/
def Relation.comparison? : Relation → Option Comparison
  | .lessOrEqual => some .lessOrEqual
  | .equal => some .equal
  | .greaterOrEqual => some .greaterOrEqual
  | .less | .greater => none

/-- One side of an equation over the variables it speaks of. -/
def Graph.foldSide (g : Graph α) (span : Span) (equation : Equation α) (side : List (Term α)) :
    Except (LayoutError α) (LinearExpr α Variable) :=
  ((Side.fold side).resolve (g.resolve span)).mapError fun
    | .lookup error => error
    | .fault fault => .equation ⟨equation.parts, .side fault⟩

/-- What an equation asks for. -/
def Graph.equationConstraint (g : Graph α) (equation : Located (Equation α)) :
    Except (LayoutError α) (Constraint α Variable) := do
  let left ← g.foldSide equation.span equation.value equation.value.left
  let right ← g.foldSide equation.span equation.value equation.value.right
  match equation.value.relation.comparison? with
  | some comparison => return .required left comparison right
  | none => throw (.unsupportedRelation equation.value.relation equation.span)

namespace Diagram

/-- What the boxes and the canvas ask for: box by box, then the canvas. -/
def frameConstraints (d : Diagram α) (settings : LayoutSettings α)
    (measure : DiagramBox → Size α) : List (Constraint α Variable) :=
  d.graph.boxList.flatMap (fun b =>
      b.anchors.boxConstraints d.graph.anchors (measure b) settings.outerMargin) ++
    d.graph.anchors.canvasConstraints

/-- **All that is asked of a layout**, in order. An equation that asks for nothing stands
as its error, which counts only if all before it can be satisfied. -/
def constraints (d : Diagram α) (settings : LayoutSettings α) (measure : DiagramBox → Size α) :
    List (Except (LayoutError α) (Constraint α Variable)) :=
  (d.frameConstraints settings measure).map .ok ++ d.equations.map d.graph.equationConstraint

end Diagram

end Schematic
