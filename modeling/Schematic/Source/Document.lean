import Schematic.Color
import Schematic.Source.Span
import Schematic.Source.Validation

/-!
# Documents

A document is a list of declarations: box styles, boxes, connectors, constraints and
comments. Blocks in braces hold fields. Any known field may stand in any block;
which fields a declaration takes is settled when the diagram is built.

* `Field`, `Item`, `Declaration`, `Document`: the tree of a source.
* `FieldKey`: the names of fields, and the kind of value each takes.
-/

namespace Schematic

/-- The kinds of values that fields have. -/
inductive ValueKind where
  | color
  | number
  | text
  | name
deriving DecidableEq, Repr

/-- What a message says a kind of value is. -/
def ValueKind.article : ValueKind → String
  | color => "a color"
  | number => "a number"
  | text => "a quoted string"
  | name => "a name"

/-- The names of fields. -/
inductive FieldKey where
  | background
  | textColor
  | lineWidth
  | label
  | sourceHead
  | targetHead
  | style
deriving DecidableEq, Repr

namespace FieldKey

/-- All names of fields. -/
def all : List FieldKey := [background, textColor, lineWidth, label, sourceHead, targetHead, style]

/-- A name as it is written in a source. -/
def text : FieldKey → String
  | background => "background-color"
  | textColor => "text-color"
  | lineWidth => "line-width"
  | label => "label"
  | sourceHead => "head1"
  | targetHead => "head2"
  | style => "style"

/-- The name that a text spells. -/
def ofText? (s : String) : Option FieldKey := all.find? (·.text == s)

/-- The kind of value that a field takes. -/
def kind : FieldKey → ValueKind
  | background | textColor => .color
  | lineWidth => .number
  | label => .text
  | sourceHead | targetHead | style => .name

end FieldKey

/-- An entry of a block: a field with its value, or a comment. -/
inductive Field (α : Type) where
  | background (color : Color α)
  | textColor (color : Color α)
  | lineWidth (width : α)
  | label (text : String)
  | sourceHead (name : String)
  | targetHead (name : String)
  | style (name : String)
  | comment (text : String)
deriving DecidableEq, Repr

/-- The name of a field; a comment has none. -/
def Field.key? {α : Type} : Field α → Option FieldKey
  | background _ => some .background
  | textColor _ => some .textColor
  | lineWidth _ => some .lineWidth
  | label _ => some .label
  | sourceHead _ => some .sourceHead
  | targetHead _ => some .targetHead
  | style _ => some .style
  | comment _ => none

/-- Why a name and a value make up no field. -/
inductive FieldFault where
  | unknownKey (key : String)
  | badHex (text : String)
  | unknownColor (name : String)
  | wrongKind (key : String) (expected : ValueKind)
deriving DecidableEq, Repr

/-- The fault in words. -/
def FieldFault.message : FieldFault → String
  | unknownKey key => "Unknown field '" ++ key ++ "'"
  | badHex text => "Invalid hex color '" ++ text ++ "'"
  | unknownColor name => "Unknown color '" ++ name ++ "'"
  | wrongKind key expected => "Field '" ++ key ++ "' expects " ++ expected.article

/-- The value of a field before its name decides how it is read. -/
inductive RawValue (α : Type) where
  | hex (text : String)
  | number (value : α)
  | quoted (text : String)
  | name (text : String)
deriving DecidableEq, Repr

/-- The value that a token stands for. -/
def RawValue.ofToken? {α : Type} : Token α → Option (RawValue α)
  | .hex text => some (.hex text)
  | .number value => some (.number value)
  | .quoted text => some (.quoted text)
  | .name text => some (.name text)
  | _ => none

namespace Field

variable {α : Type} [Scalar α]

/-- The colour of a raw value. -/
def readColor (key : String) : RawValue α → Except FieldFault (Color α)
  | .hex text => match Color.ofHex? text with
    | some color => .ok color
    | none => .error (.badHex text)
  | .name name => match Color.ofName? name with
    | some color => .ok color
    | none => .error (.unknownColor name)
  | _ => .error (.wrongKind key .color)

/-- The number of a raw value. -/
def readNumber (key : String) : RawValue α → Except FieldFault α
  | .number value => .ok value
  | _ => .error (.wrongKind key .number)

/-- The text of a raw value. -/
def readText (key : String) : RawValue α → Except FieldFault String
  | .quoted text => .ok text
  | _ => .error (.wrongKind key .text)

/-- The name of a raw value. -/
def readName (key : String) : RawValue α → Except FieldFault String
  | .name name => .ok name
  | _ => .error (.wrongKind key .name)

/-- **The field** that a name and a value make up. -/
def read (key : String) (value : RawValue α) : Except FieldFault (Field α) :=
  match FieldKey.ofText? key with
  | none => .error (.unknownKey key)
  | some .background => background <$> readColor key value
  | some .textColor => textColor <$> readColor key value
  | some .lineWidth => lineWidth <$> readNumber key value
  | some .label => label <$> readText key value
  | some .sourceHead => sourceHead <$> readName key value
  | some .targetHead => targetHead <$> readName key value
  | some .style => style <$> readName key value

end Field

/-- What a declaration declares. -/
inductive Item (α : Type) where
  | boxStyle (name : Located String) (fields : List (Located (Field α)))
  | box (name : Located String) (fields : List (Located (Field α)))
  | connect (source target : Located String) (fields : List (Located (Field α)))
  | constrain (equation : Equation α)
  | comment (text : String)
deriving DecidableEq, Repr

/-- An item and the comment at the end of its line. The comment of a constraint is
kept with its equation. -/
structure Declaration (α : Type) where
  item : Item α
  trailing : Option String
deriving DecidableEq, Repr

/-- The declarations of a source, in order. -/
structure Document (α : Type) where
  declarations : List (Located (Declaration α))
deriving DecidableEq, Repr

end Schematic
