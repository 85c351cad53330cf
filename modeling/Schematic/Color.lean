import Schematic.Number.Scalar

/-!
# Colours

Colours have a red, a green, a blue and an alpha channel between zero and one. A
source names them, or spells them with hexadecimal digits; they are written back
with one byte per channel.

* `Color.ofName?`, `Color.ofHex?`, `Color.ofText?`: the spellings of a colour.
* `Color.text`, `Color.rgbText`: the written forms `#RRGGBBAA` and `#rrggbb`.
-/

namespace Schematic

/-- A colour by its channels. -/
structure Color (α : Type) where
  red : α
  green : α
  blue : α
  alpha : α
deriving DecidableEq, Repr

namespace Color

variable {α : Type} [Scalar α]

/-- Nothing at all: black without any alpha. -/
def clear : Color α := ⟨Scalar.zero, Scalar.zero, Scalar.zero, Scalar.zero⟩

/-- An opaque colour with every channel either off or full. -/
def primary (red green blue : Bool) : Color α :=
  let level := fun on => if on then Scalar.one else Scalar.zero
  ⟨level red, level green, level blue, Scalar.one⟩

/-- Opaque black. -/
def black : Color α := primary false false false

/-- Opaque white. -/
def white : Color α := primary true true true

/-- The colours that have a name. -/
def ofName? : String → Option (Color α)
  | "clear" => some clear
  | "black" => some black
  | "white" => some white
  | "red" => some (primary true false false)
  | "green" => some (primary false true false)
  | "blue" => some (primary false false true)
  | "yellow" => some (primary true true false)
  | "cyan" => some (primary false true true)
  | "magenta" => some (primary true false true)
  | _ => none

/-- The value of a hexadecimal digit. -/
def hexDigit? (c : Char) : Option Nat :=
  if c.isDigit then some (c.toNat - '0'.toNat)
  else if 'a' ≤ c ∧ c ≤ 'f' then some (c.toNat - 'a'.toNat + 10)
  else if 'A' ≤ c ∧ c ≤ 'F' then some (c.toNat - 'A'.toNat + 10)
  else none

/-- The colour whose channels are the given bytes. -/
def ofBytes (red green blue alpha : Nat) : Color α :=
  let channel := fun byte : Nat => (byte : α) / ((255 : Nat) : α)
  ⟨channel red, channel green, channel blue, channel alpha⟩

/-- The colour spelled by hexadecimal digits: one or two per channel, and full alpha
if only three channels are given. One digit stands for itself twice. -/
def ofHexDigits? : List Nat → Option (Color α)
  | [r, g, b] => some (ofBytes (17 * r) (17 * g) (17 * b) 255)
  | [r, g, b, a] => some (ofBytes (17 * r) (17 * g) (17 * b) (17 * a))
  | [r, r', g, g', b, b'] => some (ofBytes (16 * r + r') (16 * g + g') (16 * b + b') 255)
  | [r, r', g, g', b, b', a, a'] =>
    some (ofBytes (16 * r + r') (16 * g + g') (16 * b + b') (16 * a + a'))
  | _ => none

/-- The colour spelled by hexadecimal digits after an optional `#`. -/
def ofHex? (text : String) : Option (Color α) :=
  let digits := match text.toList with
    | '#' :: rest => rest
    | all => all
  (digits.mapM hexDigit?).bind ofHexDigits?

/-- The colour that a text names or spells; names go first. -/
def ofText? (text : String) : Option (Color α) := (ofName? text).orElse fun _ => ofHex? text

/-- A channel as a byte: cut to the range from zero to one and rounded. -/
def byte (channel : α) : Nat :=
  Scalar.roundNat (Scalar.clamp Scalar.zero Scalar.one channel * ((255 : Nat) : α))

/-- The channels as bytes: red, green, blue and alpha. -/
def bytes (c : Color α) : List Nat := [byte c.red, byte c.green, byte c.blue, byte c.alpha]

/-- The sixteen digits, in capitals or not. -/
def hexChar (capital : Bool) (n : Nat) : Char :=
  if capital then (Nat.digitChar n).toUpper else Nat.digitChar n

/-- A byte as two hexadecimal digits. -/
def hexByte (capital : Bool) (n : Nat) : List Char :=
  [hexChar capital (n / 16), hexChar capital (n % 16)]

/-- The form `#RRGGBBAA`, with capital digits. -/
def text (c : Color α) : String := String.ofList ('#' :: c.bytes.flatMap (hexByte true))

/-- The form `#rrggbb`, without the alpha channel and with small digits. -/
def rgbText (c : Color α) : String :=
  String.ofList ('#' :: (c.bytes.take 3).flatMap (hexByte false))

end Color

end Schematic
