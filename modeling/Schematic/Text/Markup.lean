/-!
# Text in markup

In markup five characters are written as entities, so that no text ends an element or
an attribute.

* `markup`: a text as it stands in markup.
* `replaced`: a text with another one in place of a character.
-/

namespace Schematic.Text

/-- The entity of a character that may not stand for itself. -/
def entity? : Char → Option String
  | '&' => some "&amp;"
  | '<' => some "&lt;"
  | '>' => some "&gt;"
  | '"' => some "&quot;"
  | '\'' => some "&apos;"
  | _ => none

/-- A character as it stands in markup. -/
def markupChar (c : Char) : List Char :=
  match entity? c with
  | some entity => entity.toList
  | none => [c]

/-- **A text as it stands in markup.** -/
def markup (text : String) : String := String.ofList (text.toList.flatMap markupChar)

/-- A character, or a text in place of it. -/
def replacedChar (c : Char) (other : String) (d : Char) : List Char :=
  if d = c then other.toList else [d]

/-- A text with another one in place of a character. -/
def replaced (c : Char) (other text : String) : String :=
  String.ofList (text.toList.flatMap (replacedChar c other))

end Schematic.Text
