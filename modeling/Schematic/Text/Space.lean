import Schematic.Text.Range

/-!
# White space

The characters of Unicode with the property *white space*, and the characters that end
a line.

* `isSpace`: the property.
* `trimEnd`: a text without the white space at its end.
* `endsLine`: the characters after which a line of a source ends.
-/

namespace Schematic.Text

/-- The white space of Unicode, as increasing ranges. -/
def spaceRanges : List (Nat × Nat) :=
  [(0x9, 0xD), (0x20, 0x20), (0x85, 0x85), (0xA0, 0xA0), (0x1680, 0x1680), (0x2000, 0x200A),
   (0x2028, 0x2029), (0x202F, 0x202F), (0x205F, 0x205F), (0x3000, 0x3000)]

/-- Whether a character is white space in Unicode. -/
def isSpace (c : Char) : Bool := inRanges spaceRanges c.toNat

/-- A text without the white space at its end. -/
def trimEnd (text : List Char) : List Char := (text.reverse.dropWhile isSpace).reverse

/-- The characters that end a line of a source. -/
def endsLine (c : Char) : Bool :=
  c == '\r' || c == '\n' || c.toNat == 0xB || c.toNat == 0xC || c.toNat == 0x85 ||
    c.toNat == 0x2028 || c.toNat == 0x2029

end Schematic.Text
