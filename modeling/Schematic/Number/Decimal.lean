/-!
# Shortest decimals

Which decimal digits stand for a double. A positive finite double is `m * 2 ^ e`,
and every real number in an interval around it rounds to it; the shortest decimal
is the one with the fewest digits in that interval, and of those the nearest. All
of it is exact arithmetic on natural numbers.

* `Binary`: the parts of a double, read off its bits.
* `Binary.toNat`: natural numbers near a double.
* `Interval.contains`: which decimals read back as the double.
* `shortest`: the digits and the power of ten of the shortest decimal.
-/

namespace Schematic.Decimal

/-- What a double is, read off its 64 bits. -/
inductive Binary where
  /-- Not a number. -/
  | nan
  /-- An infinity. -/
  | infinite (negative : Bool)
  /-- `mantissa * 2 ^ exponent` with its sign. -/
  | finite (negative : Bool) (mantissa : Nat) (exponent : Int)
deriving DecidableEq, Repr

/-- The parts of the double with the given bits. -/
def Binary.ofBits (bits : Nat) : Binary :=
  let negative := bits / Nat.pow 2 63 % 2 == 1
  let exponent : Nat := bits / Nat.pow 2 52 % Nat.pow 2 11
  let fraction : Nat := bits % Nat.pow 2 52
  if exponent == 2047 then
    if fraction == 0 then .infinite negative else .nan
  else if exponent == 0 then .finite negative fraction (-1074)
  else .finite negative (Nat.pow 2 52 + fraction) ((exponent : Int) - 1075)

/-- The parts of a double. -/
def Binary.ofFloat (x : Float) : Binary := .ofBits x.toBits.toNat

/-- A natural number near a double, as `near` finds one near a quotient. Negative numbers and what
is not a number come to zero, and large numbers to the greatest one of 64 bits. -/
def Binary.toNat (near : (num den : Nat) → Nat) : Binary → Nat
  | .nan => 0
  | .infinite negative => if negative then 0 else Nat.pow 2 64 - 1
  | .finite negative mantissa exponent =>
    if negative then 0
    else min (near (mantissa * Nat.pow 2 exponent.toNat) (Nat.pow 2 (-exponent).toNat))
      (Nat.pow 2 64 - 1)

/-- The real numbers that round to a positive double, scaled to whole numbers: the
double is `value / unit`, the interval goes from `low / unit` to `high / unit`, and
its ends belong to it if `closed` holds. -/
structure Interval where
  low : Nat
  value : Nat
  high : Nat
  unit : Nat
  closed : Bool

/-- The interval around `mantissa * 2 ^ exponent`. It reaches half way to both
neighbours, and the lower neighbour of a power of two is twice as close. -/
def Interval.around (mantissa : Nat) (exponent : Int) : Interval :=
  let below := if mantissa == Nat.pow 2 52 && exponent != -1074 then 1 else 2
  let shift := Nat.pow 2 (exponent - 2).toNat
  { low := (4 * mantissa - below) * shift
    value := 4 * mantissa * shift
    high := (4 * mantissa + 2) * shift
    unit := Nat.pow 2 (2 - exponent).toNat
    closed := mantissa % 2 == 0 }

/-- Whether the decimal `digits * 10 ^ power` lies in the interval. -/
def Interval.contains (i : Interval) (digits : Nat) (power : Int) : Bool :=
  let point := digits * Nat.pow 10 power.toNat * i.unit
  let scale := Nat.pow 10 (-power).toNat
  if i.closed then i.low * scale ≤ point && point ≤ i.high * scale
  else i.low * scale < point && point < i.high * scale

/-- How many digits a natural number has; zero has none. -/
def digitCount (n : Nat) : Nat := if n = 0 then 0 else (Nat.toDigits 10 n).length

/-- How many zeros follow the point before the first digit of `value / unit`, for a
positive value below one. At most `fuel` are counted. -/
def leadingZeros (value unit : Nat) : (fuel : Nat) → Nat
  | 0 => 0
  | fuel + 1 => if unit ≤ value * 10 then 0 else leadingZeros (value * 10) unit fuel + 1

/-- The number of digits before the point, negative for zeros after it. -/
def Interval.magnitude (i : Interval) : Int :=
  if i.unit ≤ i.value then digitCount (i.value / i.unit)
  else -(leadingZeros i.value i.unit 400)

/-- The best decimal in the interval whose last digit counts `10 ^ power`: the nearer
of the two neighbours of the value, the upper one in the middle. -/
def Interval.nearest? (i : Interval) (power : Int) : Option Nat :=
  let num := i.value * Nat.pow 10 (-power).toNat
  let den := i.unit * Nat.pow 10 power.toNat
  let below := num / den
  let inside := fun d => 0 < d && i.contains d power
  match inside below, inside (below + 1) with
  | false, false => none
  | true, false => some below
  | false, true => some (below + 1)
  | true, true => if 2 * (num % den) < den then some below else some (below + 1)

/-- The shortest decimal in the interval with at least `count` digits. -/
def Interval.search (i : Interval) (count : Nat) : (fuel : Nat) → Nat × Int
  | 0 => (0, 0)
  | fuel + 1 =>
    let power := i.magnitude - count
    match i.nearest? power with
    | some digits => (digits, power)
    | none => i.search (count + 1) fuel

/-- The digits and the power of ten of the shortest decimal that reads back as
`mantissa * 2 ^ exponent`. Seventeen digits always do. -/
def shortest (mantissa : Nat) (exponent : Int) : Nat × Int :=
  if mantissa = 0 then (0, 0) else (Interval.around mantissa exponent).search 1 18

/-- `digits * 10 ^ power` with all its places, and no point in a whole number. -/
def positional (digits : Nat) (power : Int) : String :=
  let text := Nat.toDigits 10 digits
  if 0 ≤ power then
    if digits = 0 then "0" else String.ofList (text ++ List.replicate power.toNat '0')
  else
    let places := (-power).toNat
    let padded := List.replicate (places + 1 - text.length) '0' ++ text
    let whole := padded.take (padded.length - places)
    let fraction := padded.drop (padded.length - places)
    let kept := (fraction.reverse.dropWhile (· == '0')).reverse
    if kept.isEmpty then String.ofList whole else String.ofList (whole ++ '.' :: kept)

/-- `digits * 10 ^ power` with one digit before the point and the exponent after `e`. -/
def scientific (digits : Nat) (power : Int) : String :=
  let text := Nat.toDigits 10 digits
  let kept := (text.reverse.dropWhile (· == '0')).reverse
  let exponent := power + (text.length - 1 : Int)
  match kept with
  | [] => "0e0"
  | [d] => String.ofList [d] ++ "e" ++ toString exponent
  | d :: rest => String.ofList (d :: '.' :: rest) ++ "e" ++ toString exponent

/-- The sign of a number, written only if it is negative. -/
def signText (negative : Bool) : String := if negative then "-" else ""

/-- The plain text of a double: its shortest decimal, never with an exponent. -/
def plain : Binary → String
  | .nan => "NaN"
  | .infinite negative => signText negative ++ "inf"
  | .finite negative mantissa exponent =>
    let (digits, power) := shortest mantissa exponent
    signText negative ++ positional digits power

/-- The text of a double in a listing: always with a point or an exponent. Numbers of
at least `10 ^ 16` and positive ones below `10 ^ -4` are written with an exponent. -/
def listing : Binary → String
  | .nan => "NaN"
  | .infinite negative => signText negative ++ "inf"
  | .finite negative mantissa exponent =>
    let (digits, power) := shortest mantissa exponent
    let size := power + digitCount digits
    if digits ≠ 0 ∧ (16 < size ∨ size < -3) then signText negative ++ scientific digits power
    else
      let text := positional digits power
      signText negative ++ (if text.toList.contains '.' then text else text ++ ".0")

end Schematic.Decimal
