import Schematic.Draw.Label
import Schematic.Route.Connector

/-!
# Emitting draw commands

A diagram is drawn from back to front: the background, the boxes in the order of their
names, each with its label, and the connectors in the order of their declarations,
each with its arrowheads.

* `SolvedGraph.emit`: the commands that draw a diagram.
-/

namespace Schematic

variable {α : Type} [Scalar α]

/-- The commands for the background. -/
def backgroundCommands (canvas : Rect α) : Option (Color α) → List (DrawCommand α)
  | some color => [.setFill color, .fill [canvas]]
  | none => []

/-- How the outline of a box is painted: a black line, around its background if it has one. -/
def outlineCommand : Option (Color α) → DrawCommand α
  | some fill => .fillAndStrokePath ⟨Scalar.one, .black, fill⟩
  | none => .strokePath (.line Scalar.one .black)

/-- The commands for a box: its outline, and its label in the middle. -/
def DiagramBox.commands (b : DiagramBox) (frame : Rect α) (styles : StyleSheet α)
    (settings : TextSettings α) : List (DrawCommand α) :=
  let label := b.labelText styles settings
  let room := settings.measure label
  let center := frame.center
  [.addRect frame, outlineCommand (styles.resolved b.style).background,
    .drawText label
      ⟨center.x - Scalar.half room.width, center.y - Scalar.half room.height⟩]

/-- The commands for an arrowhead. -/
def Arrowhead.commands (head : Arrowhead α) : List (DrawCommand α) :=
  [.move head.tip, .addLine head.left, .addLine head.right, .addLine head.tip,
    .fillPath (.area .black)]

/-- The commands for a connector: its line and its arrowheads. -/
def Connector.commands (c : Connector α) : List (DrawCommand α) :=
  match c.points with
  | [] => []
  | first :: rest =>
    .move first :: rest.map .addLine ++ .strokePath (.line c.lineWidth .black) ::
      c.arrowheads.flatMap Arrowhead.commands

/-- **The commands that draw a diagram** with the connectors that were routed. -/
def SolvedGraph.emit (s : SolvedGraph α) (connectors : List (Connector α))
    (settings : TextSettings α) (background : Option (Color α)) : List (DrawCommand α) :=
  backgroundCommands s.canvas background ++
    s.boxFrames.flatMap (fun (b, frame) => b.commands frame s.graph.styles settings) ++
    connectors.flatMap Connector.commands

end Schematic
