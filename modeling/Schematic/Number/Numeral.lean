import Schematic.Number.Decimal

/-!
# Numerals

How numbers are read from a source and written into results.

* `Numeral`: the reading and the two writings of a type of numbers.
-/

namespace Schematic

/-- Numbers that can be spelled with decimal digits. -/
class Numeral (α : Type) where
  /-- The number `digits / 10 ^ places`, or its negative. -/
  ofDecimal : (negative : Bool) → (digits places : Nat) → α
  /-- The plain text of a number, as short as reading it back allows. -/
  plain : α → String
  /-- The text of a number in a listing, where it shows that it may have a fraction. -/
  listing : α → String

/-- Doubles: the nearest one is read, and the shortest decimal is written. -/
instance : Numeral Float where
  ofDecimal negative digits places :=
    let x := Float.ofScientific digits true places
    if negative then -x else x
  plain x := Decimal.plain (.ofFloat x)
  listing x := Decimal.listing (.ofFloat x)

end Schematic
