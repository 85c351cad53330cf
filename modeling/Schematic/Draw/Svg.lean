import Schematic.Draw.Shape
import Schematic.Number.Numeral
import Schematic.Text.Markup

/-!
# SVG

Shapes are written as elements of an SVG document, each on a line of its own if the
document is to be read by people.

* `SvgElement.text`: an element.
* `svgDocument`: a document of a size with elements.
* `svgOfCommands`: the document that draw commands draw.
-/

namespace Schematic

variable {α : Type} [Scalar α] [Numeral α]

/-- An attribute, with the blank before it. -/
def svgAttribute (name value : String) : String := " " ++ name ++ "=\"" ++ value ++ "\""

/-- An attribute that is a number. -/
def numberAttribute (name : String) (value : α) : String := svgAttribute name (Numeral.plain value)

/-- A byte as a part of the whole, with three digits after the point. -/
def opacityText (byte : Nat) : String :=
  let thousandths := (2000 * byte + 255) / 510
  let digits := toString (thousandths % 1000)
  toString (thousandths / 1000) ++ "." ++
    String.join (List.replicate (3 - digits.length) "0") ++ digits

/-- The attributes of a colour. A colour that cannot be seen is `none`, and one that lets
the ground through has an opacity. -/
def paintAttributes (name : String) (color : Color α) : String :=
  if color.alpha ≤ Scalar.zero then svgAttribute name "none"
  else
    let paint := svgAttribute name color.rgbText
    if color.alpha < Scalar.one then
      paint ++ svgAttribute (name ++ "-opacity") (opacityText (Color.byte color.alpha))
    else paint

/-- An element of a document. -/
inductive SvgElement (α : Type) where
  | rect (rect : Rect α) (fill : Color α)
  /-- A path with its data, the colour of its area, and the colour and the width of its line. -/
  | path (data : String) (fill : Color α) (stroke : Option (Color α × α))
  | line (text : String) (anchor : Point α) (style : StyledText α)
deriving DecidableEq, Repr

/-- Which part of a line of text is at its anchor. -/
def Alignment.anchorText : Alignment → String
  | left => "start"
  | center => "middle"
  | right => "end"

/-- The written form of an element. -/
def SvgElement.text (fontFamily : String) : SvgElement α → String
  | rect r fill =>
    "<rect" ++ numberAttribute "x" r.left ++ numberAttribute "y" r.top ++
      numberAttribute "width" r.size.width ++ numberAttribute "height" r.size.height ++
      paintAttributes "fill" fill ++ "/>"
  | path data fill stroke =>
    "<path" ++ svgAttribute "d" data ++ paintAttributes "fill" fill ++
      (match stroke with
        | some (color, width) =>
          paintAttributes "stroke" color ++ numberAttribute "stroke-width" width
        | none => "") ++ "/>"
  | line text anchor style =>
    "<text" ++ numberAttribute "x" anchor.x ++ numberAttribute "y" anchor.y ++
      svgAttribute "text-anchor" style.alignment.anchorText ++
      svgAttribute "dominant-baseline" "middle" ++
      svgAttribute "font-family" (Text.markup fontFamily) ++
      numberAttribute "font-size" style.size ++ paintAttributes "fill" style.color ++ ">" ++
      Text.markup text ++ "</text>"

/-- The data of a part of a path. -/
def PathStep.text : PathStep α → String
  | move p => "M" ++ Numeral.plain p.x ++ " " ++ Numeral.plain p.y
  | line p => "L" ++ Numeral.plain p.x ++ " " ++ Numeral.plain p.y
  | outline r =>
    "M" ++ Numeral.plain r.left ++ " " ++ Numeral.plain r.top ++ " h" ++
      Numeral.plain r.size.width ++ " v" ++ Numeral.plain r.size.height ++ " h" ++
      Numeral.plain (-r.size.width) ++ " Z"

/-- The element of a shape. -/
def Shape.element : Shape α → SvgElement α
  | rect r fill => .rect r fill
  | path steps fill stroke => .path (" ".intercalate (steps.map PathStep.text)) fill stroke
  | line text anchor style => .line text anchor style

/-- The lines of a document: its header, the start of the root, the elements and the end
of the root. -/
def svgLines (settings : SvgSettings α) (size : Size α) (elements : List (SvgElement α)) :
    List String :=
  let indent := if settings.prettyPrint then "  " else ""
  let width := Numeral.plain size.width
  let height := Numeral.plain size.height
  ["<?xml" ++ svgAttribute "version" "1.0" ++ svgAttribute "encoding" "UTF-8" ++ "?>",
    "<svg" ++ svgAttribute "xmlns" "http://www.w3.org/2000/svg" ++ svgAttribute "width" width ++
      svgAttribute "height" height ++ svgAttribute "viewBox" ("0 0 " ++ width ++ " " ++ height) ++ ">"] ++
    elements.map (fun e => indent ++ e.text settings.fontFamily) ++ ["</svg>"]

/-- **The document** of a size with elements. -/
def svgDocument (settings : SvgSettings α) (size : Size α) (elements : List (SvgElement α)) :
    String :=
  (if settings.prettyPrint then "\n" else "").intercalate (svgLines settings size elements)

/-- **The document that draw commands draw.** -/
def svgOfCommands (settings : SvgSettings α) (text : TextSettings α) (size : Size α)
    (commands : List (DrawCommand α)) : String :=
  svgDocument settings size ((shapes text commands).map Shape.element)

end Schematic
