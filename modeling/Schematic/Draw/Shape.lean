import Schematic.Draw.Metrics

/-!
# Shapes

Draw commands are replayed into the shapes they draw: filled rectangles, painted paths
and lines of text. Rectangles, moves and lines are collected until a command paints
them; painting nothing draws nothing.

* `Easel.apply`: one command.
* `shapes`: the shapes that commands draw, in order.
-/

namespace Schematic

/-- A part of a path. -/
inductive PathStep (α : Type) where
  | move (point : Point α)
  | line (point : Point α)
  /-- The outline of a rectangle. -/
  | outline (rect : Rect α)
deriving DecidableEq, Repr

/-- Something drawn. -/
inductive Shape (α : Type) where
  | rect (rect : Rect α) (fill : Color α)
  /-- A path with the colour of its area, and the colour and the width of its line. -/
  | path (steps : List (PathStep α)) (fill : Color α) (stroke : Option (Color α × α))
  /-- A line of a text, at the point that its alignment and the middle of its height give. -/
  | line (text : String) (anchor : Point α) (style : StyledText α)
deriving DecidableEq, Repr

/-- A drawing on the way: the fill colour, the path collected so far and the shapes. -/
structure Easel (α : Type) where
  fill : Color α
  path : List (PathStep α)
  shapes : List (Shape α)
deriving DecidableEq, Repr

namespace Easel

variable {α : Type} [Scalar α]

/-- An empty drawing, with black as the colour to fill with. -/
def empty : Easel α := ⟨.black, [], []⟩

/-- The drawing with more shapes in front. -/
def draw (e : Easel α) (shapes : List (Shape α)) : Easel α :=
  { e with shapes := e.shapes ++ shapes }

/-- The drawing with another part of the path. -/
def step (e : Easel α) (step : PathStep α) : Easel α := { e with path := e.path ++ [step] }

/-- The drawing with its path painted and a new one begun. -/
def paint (e : Easel α) (fill : Color α) (stroke : Option (Color α × α)) : Easel α :=
  let blank := { e with path := [] }
  if e.path.isEmpty then blank else blank.draw [.path e.path fill stroke]

/-- Where the lines of a text are anchored: at the left, in the middle or at the right of
the room it takes. -/
def anchorX (x width : α) : Alignment → α
  | .left => x
  | .center => x + Scalar.half width
  | .right => x + width

/-- The lines of a text, from the top of the room it takes downwards. -/
def textLines (settings : TextSettings α) (t : StyledText α) (point : Point α) :
    List (Shape α) :=
  let x := anchorX point.x (settings.measure t).width t.alignment
  (Text.lines t.text).zipIdx.map fun (line, i) =>
    .line line
      ⟨x, point.y + settings.heightOfLine t.size * ((i : α) + Scalar.half Scalar.one)⟩ t

/-- The drawing after a command. -/
def apply (settings : TextSettings α) (e : Easel α) : DrawCommand α → Easel α
  | .setFill color => { e with fill := color }
  | .fill rects => e.draw (rects.map fun r => .rect r e.fill)
  | .addRect r => e.step (.outline r)
  | .move p => e.step (.move p)
  | .addLine p => e.step (.line p)
  | .drawText t point => e.draw (textLines settings t point)
  | .strokePath style => e.paint .clear (some (style.stroke, style.lineWidth))
  | .fillPath style => e.paint style.fill none
  | .fillAndStrokePath style => e.paint style.fill (some (style.stroke, style.lineWidth))

end Easel

/-- The drawing after commands. -/
def replay {α : Type} [Scalar α] (settings : TextSettings α) (commands : List (DrawCommand α)) :
    Easel α :=
  commands.foldl (Easel.apply settings) .empty

/-- **The shapes that commands draw**, from back to front. -/
def shapes {α : Type} [Scalar α] (settings : TextSettings α) (commands : List (DrawCommand α)) :
    List (Shape α) :=
  (replay settings commands).shapes

end Schematic
