import Schematic.Draw.Command
import Schematic.Number.Numeral
import Schematic.Route.Cell
import Schematic.Text.Quoted

/-!
# Listings

Draw commands and the values in them are listed with the names of their parts, one
command a line.

* `DrawCommand.listing`: the listing of a command.
-/

namespace Schematic

/-- A value with named parts. -/
def listedRecord (name : String) (parts : List (String × String)) : String :=
  name ++ " \x7b " ++ ", ".intercalate (parts.map fun (part, value) => part ++ ": " ++ value) ++
    " \x7d"

/-- A value with one part that has no name. -/
def listedWrapper (name value : String) : String := name ++ "(" ++ value ++ ")"

/-- Values in a row. -/
def listedRow (values : List String) : String := "[" ++ ", ".intercalate values ++ "]"

/-- The listing of a cell. -/
def Cell.listing (c : Cell) : String :=
  listedRecord "Coordinate" [("x", toString c.x), ("y", toString c.y)]

/-- The listing of an alignment. -/
def Alignment.listing : Alignment → String
  | left => "Left"
  | center => "Center"
  | right => "Right"

variable {α : Type} [Numeral α]

/-- The listing of a colour. -/
def Color.listing (c : Color α) : String :=
  listedRecord "Color" [("r", Numeral.listing c.red), ("g", Numeral.listing c.green),
    ("b", Numeral.listing c.blue), ("a", Numeral.listing c.alpha)]

/-- The listing of a point. -/
def Point.listing (p : Point α) : String :=
  listedRecord "Point" [("x", Numeral.listing p.x), ("y", Numeral.listing p.y)]

/-- The listing of a size. -/
def Size.listing (s : Size α) : String :=
  listedRecord "Size" [("width", Numeral.listing s.width), ("height", Numeral.listing s.height)]

/-- The listing of a rectangle. -/
def Rect.listing (r : Rect α) : String :=
  listedRecord "Rectangle" [("origin", r.origin.listing), ("size", r.size.listing)]

/-- The listing of how a path is painted. -/
def PathStyle.listing (s : PathStyle α) : String :=
  listedRecord "PathStyle" [("line_width", Numeral.listing s.lineWidth),
    ("stroke_color", s.stroke.listing), ("fill_color", s.fill.listing)]

/-- The listing of a text. -/
def StyledText.listing (t : StyledText α) : String :=
  listedRecord "StyledText" [("text", Text.listed t.text), ("font_size", Numeral.listing t.size),
    ("color", t.color.listing), ("alignment", t.alignment.listing)]

/-- **The listing of a command.** -/
def DrawCommand.listing : DrawCommand α → String
  | setFill color => listedWrapper "SetFill" color.listing
  | fill rects => listedWrapper "Fill" (listedRow (rects.map Rect.listing))
  | addRect rect => listedWrapper "AddRect" rect.listing
  | move point => listedWrapper "Move" point.listing
  | addLine point => listedWrapper "AddLine" point.listing
  | drawText text point =>
    listedRecord "DrawText" [("text", text.listing), ("point", point.listing)]
  | strokePath style => listedWrapper "StrokePath" style.listing
  | fillPath style => listedWrapper "FillPath" style.listing
  | fillAndStrokePath style => listedWrapper "FillAndStrokePath" style.listing

end Schematic
