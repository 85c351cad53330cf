import Schematic.Settings
import Schematic.Source.Span
import Schematic.Toml.Document

/-!
# Configuration files

Settings can be written in TOML: a section for each stage, with the settings that are
not the standard ones. A section may also be a row of values in the order of its
settings. Sections with other names are refused; other names within a section are not.

* `Settings.ofToml`: the settings that a text spells, or the place of its first error.
* `FilePosition`: the line and the column of a place.
-/

namespace Schematic

open Toml (Place Value Entries Key)

/-- A line and a column of a text, both counted from one. -/
structure FilePosition where
  line : Nat
  column : Nat
deriving DecidableEq, Repr

/-- The position of a place in a text. The end of the text is behind its last character,
even if that one ends a line. Columns are characters; before a character that is not
ASCII they are bytes. -/
def FilePosition.ofPlace (text : String) (place : Place) : FilePosition :=
  let all := text.toList
  let before := all.take (all.length - place.length)
  let (front, behind) := if place.isEmpty then (before.dropLast, 1) else (before, 0)
  let line := front.reverse.takeWhile (· != '\n')
  let ascii := place.head?.all (·.toNat < 0x80)
  ⟨front.count '\n' + 1, (if ascii then line.length else byteLength line) + 1 + behind⟩

/-- The position in words. -/
def FilePosition.message (p : FilePosition) : String :=
  "TOML parse error at line " ++ toString p.line ++ ", column " ++ toString p.column

namespace Configuration

/-- Why a value does not suit a setting. -/
inductive Misfit where
  /-- It is no number, truth value or text, as the setting asks for. -/
  | kind
  /-- It is a text, but not one that means anything. -/
  | meaning

/-- A setting with its value, and the place where each misfit is told. -/
structure Field where
  name : String
  place : Misfit → Place
  value : Value

/-- A setting with its value, and the place of the value for every misfit. -/
def Field.named (key : Key) (place : Place) (value : Value) : Field :=
  ⟨key.text, fun _ => place, value⟩

/-- Settings whose values stand in a row that begins at a place, in order. A text without
meaning is told there. -/
def Field.row (start : Place) (names : List String) (items : List (Place × Value)) : List Field :=
  names.zipWith (fun name (place, value) =>
    ⟨name, fun | .kind => place | .meaning => start, value⟩) items

/-- The settings of a section: by their names or by their places. -/
def fields? (names : List String) (start : Place) : Value → Option (List Field)
  | .table _ entries => some (entries.map fun (key, place, value) => .named key place value)
  | .array items => some (Field.row start names items)
  | .tables tables => some (Field.row start names (tables.map fun (place, entries) =>
      (place, .table .header entries)))
  | .dateTime => some []
  | _ => none

/-- The number of a value. -/
def number : Value → Except Misfit Float
  | .integer n => .ok (Numeral.ofDecimal (n < 0) n.natAbs 0)
  | .float x => .ok x
  | _ => .error .kind

/-- The truth value of a value. -/
def boolean : Value → Except Misfit Bool
  | .boolean b => .ok b
  | _ => .error .kind

/-- The text of a value. -/
def text : Value → Except Misfit String
  | .text s => .ok s
  | _ => .error .kind

/-- The background of a value: `none`, or a colour. -/
def background (value : Value) : Except Misfit (Option (Color Float)) := do
  let s ← text value
  if s = "none" then return none
  match Color.ofText? s with
  | some color => return some color
  | none => throw .meaning

/-- Read a section, setting by setting. The place of the first misfit is the error. -/
def readSection {β : Type} (names : List String) (set : β → String → Value → Except Misfit β)
    (standard : β) (place : Place) (value : Value) : Except Place β :=
  match fields? names place value with
  | none => .error place
  | some fields => fields.foldlM (fun settings field =>
      (set settings field.name field.value).mapError field.place) standard

/-- Layout settings with one of them set. -/
def setLayout (s : LayoutSettings Float) (name : String) (value : Value) :
    Except Misfit (LayoutSettings Float) :=
  match name with
  | "outer-margin" => (number value).map ({ s with outerMargin := · })
  | "cell-side" => (number value).map ({ s with cellSide := · })
  | "routing-margin-step" => (number value).map ({ s with routingMarginStep := · })
  | _ => .ok s

/-- Text settings with one of them set. -/
def setText (s : TextSettings Float) (name : String) (value : Value) :
    Except Misfit (TextSettings Float) :=
  match name with
  | "font-size" => (number value).map ({ s with fontSize := · })
  | "char-width" => (number value).map ({ s with charWidth := · })
  | "line-height" => (number value).map ({ s with lineHeight := · })
  | _ => .ok s

/-- SVG settings with one of them set. -/
def setSvg (s : SvgSettings Float) (name : String) (value : Value) :
    Except Misfit (SvgSettings Float) :=
  match name with
  | "background" => (background value).map ({ s with background := · })
  | "pretty-print" => (boolean value).map ({ s with prettyPrint := · })
  | "font-family" => (text value).map ({ s with fontFamily := · })
  | _ => .ok s

/-- Settings with a section read. -/
def setSection (s : Settings Float) (key : Key) (place : Place) (value : Value) :
    Except Place (Settings Float) :=
  match key.text with
  | "layout" =>
    (readSection ["outer-margin", "cell-side", "routing-margin-step"] setLayout s.layout place
      value).map ({ s with layout := · })
  | "text" =>
    (readSection ["font-size", "char-width", "line-height"] setText s.text place value).map
      ({ s with text := · })
  | "svg" =>
    (readSection ["background", "pretty-print", "font-family"] setSvg s.svg place value).map
      ({ s with svg := · })
  | _ => .error key.place

end Configuration

/-- **The settings that a text spells**, or where its first error is. -/
def Settings.ofToml (text : String) : Except FilePosition (Settings Float) :=
  (do
    let entries ← Toml.Document.parse text
    entries.foldlM (fun s (key, place, value) => Configuration.setSection s key place value)
      .standard).mapError (FilePosition.ofPlace text)

end Schematic
