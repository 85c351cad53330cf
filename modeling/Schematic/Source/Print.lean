import Schematic.Source.Document

/-!
# Printing documents

A document is written with one declaration a line and one field a line. Colours are
written by their bytes and equality always as `==`; reading the text gives the same
declarations again.

* `Document.text`: the written form of a document.
-/

namespace Schematic

variable {α : Type} [Scalar α] [Numeral α]

/-- The written form of a comment. -/
def commentText (text : String) : String := "//" ++ text

/-- The written form of a field. -/
def Field.text (f : Field α) : String :=
  let value := match f with
    | background color | textColor color => color.text
    | lineWidth width => Numeral.plain width
    | label text => Text.quote text
    | sourceHead name | targetHead name | style name => name
    | comment text => commentText text
  match f.key? with
  | some key => key.text ++ ": " ++ value
  | none => value

/-- The written form of a block. -/
def blockText (fields : List (Located (Field α))) : String :=
  if fields.isEmpty then "\x7b\x7d"
  else "\x7b\n" ++ String.join (fields.map fun f => "    " ++ f.value.text ++ "\n") ++ "\x7d"

/-- The written form of an item. A box without fields has no block. -/
def Item.text : Item α → String
  | boxStyle name fields => "box-style " ++ name.value ++ " " ++ blockText fields
  | box name fields =>
    if fields.isEmpty then "box " ++ name.value
    else "box " ++ name.value ++ " " ++ blockText fields
  | connect source target fields =>
    "connect " ++ source.value ++ " " ++ target.value ++ " " ++ blockText fields
  | constrain equation => "constrain " ++ equation.text
  | comment text => commentText text

/-- The written form of a declaration. -/
def Declaration.text (d : Declaration α) : String :=
  match d.trailing with
  | some text => d.item.text ++ " " ++ commentText text
  | none => d.item.text

/-- **The written form of a document**, one declaration a line. -/
def Document.text (d : Document α) : String :=
  String.join (d.declarations.map fun declaration => declaration.value.text ++ "\n")

end Schematic
