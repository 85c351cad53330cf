import Schematic.Color
import Schematic.Geometry

/-!
# Draw commands

A drawing is a list of commands. Rectangles, moves and lines make up the current path;
the commands that paint it begin a new one.

* `DrawCommand`: one step of a drawing.
* `PathStyle`, `StyledText`: how paths and texts are painted.
-/

namespace Schematic

/-- Where the lines of a text lie in the room it takes. -/
inductive Alignment where
  | left
  | center
  | right
deriving DecidableEq, Repr

/-- A text with its font size, its colour and its alignment. -/
structure StyledText (α : Type) where
  text : String
  size : α
  color : Color α
  alignment : Alignment
deriving DecidableEq, Repr

/-- How a path is painted. -/
structure PathStyle (α : Type) where
  lineWidth : α
  stroke : Color α
  fill : Color α
deriving DecidableEq, Repr

namespace PathStyle

variable {α : Type} [Scalar α]

/-- Only the line of the path. -/
def line (width : α) (color : Color α) : PathStyle α := ⟨width, color, .clear⟩

/-- Only the area of the path. -/
def area (color : Color α) : PathStyle α := ⟨Scalar.zero, .clear, color⟩

end PathStyle

/-- One step of a drawing. -/
inductive DrawCommand (α : Type) where
  /-- The colour of the rectangles that are filled next. -/
  | setFill (color : Color α)
  /-- Rectangles in the colour that was set last. -/
  | fill (rects : List (Rect α))
  | addRect (rect : Rect α)
  | move (point : Point α)
  | addLine (point : Point α)
  /-- A text, with the top left corner of the room it takes. -/
  | drawText (text : StyledText α) (point : Point α)
  | strokePath (style : PathStyle α)
  | fillPath (style : PathStyle α)
  | fillAndStrokePath (style : PathStyle α)
deriving DecidableEq, Repr

end Schematic
