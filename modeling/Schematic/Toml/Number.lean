import Schematic.Number.Numeral
import Schematic.Toml.Value

/-!
# Numbers and dates in TOML

Integers have up to 64 bits and are written with decimal, hexadecimal, octal or binary
digits; floats have a fraction or an exponent. Single underscores may stand between
digits. Dates and times are checked but not kept.

* `number`: a number, a date or a time.
-/

namespace Schematic.Toml

/-- The digits after a digit, with single underscores between digits. Behind an underscore
there has to be one. -/
def digitsAfter (isDigit : Char → Bool) : Place → Except Failure (List Char × Place)
  | [] => .ok ([], [])
  | '_' :: rest =>
    match rest with
    | c :: after =>
      if isDigit c then (digitsAfter isDigit after).map fun (digits, rest) => (c :: digits, rest)
      else .error ⟨rest, true⟩
    | [] => .error ⟨[], true⟩
  | c :: rest =>
    if isDigit c then (digitsAfter isDigit rest).map fun (digits, rest) => (c :: digits, rest)
    else .ok ([], c :: rest)

/-- Take digits, at least one. -/
def digits (isDigit : Char → Bool) : Reader (List Char) := fun rest =>
  match rest with
  | c :: after =>
    if isDigit c then (digitsAfter isDigit after).map fun (digits, rest) => (c :: digits, rest)
    else .error ⟨rest, false⟩
  | [] => .error ⟨[], false⟩

/-- The value of a digit of any base up to sixteen. -/
def digitValue (c : Char) : Nat :=
  if c.isDigit then c.toNat - '0'.toNat else c.toLower.toNat - 'a'.toNat + 10

/-- The value of digits in a base. -/
def valueOf (base : Nat) (digits : List Char) : Nat :=
  digits.foldl (fun n c => base * n + digitValue c) 0

/-- Whether a character is a digit of a base. -/
def isDigitOf (base : Nat) (c : Char) : Bool :=
  (c.isDigit || 'a' ≤ c && c ≤ 'f' || 'A' ≤ c && c ≤ 'F') && digitValue c < base

/-- Take a sign; whether it is a minus, if there is one. -/
def sign? : Reader (Option Bool) := fun rest =>
  match rest with
  | '+' :: rest => .ok (some false, rest)
  | '-' :: rest => .ok (some true, rest)
  | _ => .ok (none, rest)

/-- Take the digits of a decimal integer. A zero is the only one that begins with zero. -/
def integerDigits : Reader (List Char) := do
  match ← peek with
  | some '0' =>
    skip "0"
    return ['0']
  | _ => digits Char.isDigit

/-- Whether an integer has 64 bits. -/
def fits (n : Int) : Bool := -9223372036854775808 ≤ n && n ≤ 9223372036854775807

/-- The integer of a sign and digits, or a failure at the place where it begins. -/
def integerOf (start : Place) (base : Nat) (negative : Bool) (digits : List Char) :
    Reader Value := do
  let n : Int := if negative then -valueOf base digits else valueOf base digits
  if fits n then return .integer n else failAt start

/-- The nearest double to `digits * 10 ^ exponent`. Beyond four hundred places up or down
there is nothing but infinity and zero. -/
def scaled (negative : Bool) (digits : List Char) (exponent : Int) : Float :=
  let n := valueOf 10 digits
  if n = 0 then Numeral.ofDecimal negative 0 0
  else if 0 ≤ exponent then Numeral.ofDecimal negative (n * Nat.pow 10 (min exponent.toNat 400)) 0
  else Numeral.ofDecimal negative n (min exponent.natAbs (digits.length + 400))

/-- Take the exponent of a float. -/
def exponent : Reader Int := do
  match ← peek with
  | some 'e' | some 'E' =>
    modify (·.drop 1)
    let negative ← sign?
    let n := valueOf 10 (← digits Char.isDigit)
    return if negative = some true then -n else n
  | _ => return 0

/-- The float of a sign, digits before and after the point and an exponent. One that is
too large is refused; one that is too small is not. -/
def floatOf (start : Place) (negative : Bool) (whole fraction : List Char) (exponent : Int) :
    Reader Value := do
  let x := scaled negative (whole ++ fraction) (exponent - fraction.length)
  if x == 1 / 0 then failAt start else return .float x

/-- Take what follows the first digits of a decimal number, if anything does. -/
def decimalRest (start : Place) (negative : Bool) (whole : List Char) : Reader Value := do
  match ← peek with
  | some '.' =>
    skip "."
    let fraction ← digits Char.isDigit
    floatOf start negative whole fraction (← exponent)
  | some 'e' | some 'E' => floatOf start negative whole [] (← exponent)
  | _ => integerOf start 10 negative whole

/-- Take a decimal number after its sign. -/
def decimal (start : Place) (negative : Bool) : Reader Value := do
  let whole ← integerDigits
  commit (decimalRest start negative whole)

/-- Take an integer whose base a letter tells. -/
def based (start : Place) (base : Nat) : Reader Value := do
  modify (·.drop 2)
  integerOf start base false (← digits (isDigitOf base))

/-- The number of so many digits, and the text after them. -/
def fixedDigits? (count : Nat) (rest : Place) : Option (Nat × Place) :=
  let digits := rest.take count
  if digits.length = count ∧ digits.all Char.isDigit then
    some (valueOf 10 digits, rest.drop count)
  else none

/-- Take a number of two digits within a range. -/
def twoDigits (least greatest : Nat) : Reader Nat := fun rest =>
  match fixedDigits? 2 rest with
  | some (n, after) =>
    if least ≤ n ∧ n ≤ greatest then .ok (n, after) else .error ⟨rest, false⟩
  | none => .error ⟨rest, false⟩

/-- The days of a month. -/
def daysOf (year month : Nat) : Nat :=
  if month = 2 then
    if year % 4 = 0 ∧ (year % 100 ≠ 0 ∨ year % 400 = 0) then 29 else 28
  else if month = 4 ∨ month = 6 ∨ month = 9 ∨ month = 11 then 30
  else 31

/-- Whether a text goes on with a year and a hyphen. -/
def isDate (rest : Place) : Bool :=
  match fixedDigits? 4 rest with
  | some (_, '-' :: _) => true
  | _ => false

/-- Whether a text goes on with an hour and a colon. -/
def isTime (rest : Place) : Bool :=
  match fixedDigits? 2 rest with
  | some (hour, ':' :: _) => hour < 24
  | _ => false

/-- Take a date. -/
def date : Reader Unit := do
  let year := ((fixedDigits? 4 (← get)).map (·.1)).getD 0
  modify (·.drop 4)
  skip "-"
  let month ← twoDigits 1 12
  skip "-"
  discard (twoDigits 1 (daysOf year month))

/-- Take a fraction of a second, if there is one. -/
def secondFraction : Reader Unit := discard (attempt (do
  skip "."
  takeClass₁ Char.isDigit))

/-- Take a time. -/
def time : Reader Unit := do
  discard (twoDigits 0 23)
  skip ":"
  discard (twoDigits 0 59)
  skip ":"
  discard (twoDigits 0 60)
  secondFraction

/-- Take the distance of a time from universal time, if there is one. -/
def offset : Reader Unit := do
  match ← peek with
  | some 'Z' | some 'z' => modify (·.drop 1)
  | some '+' | some '-' =>
    modify (·.drop 1)
    discard (twoDigits 0 23)
    skip ":"
    discard (twoDigits 0 59)
  | _ => return

/-- Whether a time follows a date. -/
def timeFollows : Place → Bool
  | c :: rest => (c == 'T' || c == 't' || c == ' ') && isTime rest
  | [] => false

/-- Take a date, and a time behind it if there is one. -/
def dateTime : Reader Value := do
  date
  if timeFollows (← get) then
    modify (·.drop 1)
    time
    offset
  return .dateTime

/-- Take a number that begins with a sign or a digit. -/
def signedNumber (start : Place) : Reader Value := do
  let sign ← sign?
  let negative := sign = some true
  if ← goesOnWith "inf" then
    skip "inf"
    return .float (if negative then -1 / 0 else 1 / 0)
  else if ← goesOnWith "nan" then
    skip "nan"
    return .float (0 / 0)
  else decimal start negative

/-- **Take a number, a date or a time.** -/
def number : Reader Value := do
  let start ← get
  if isDate start then commit dateTime
  else if isTime start then do
    commit time
    return .dateTime
  else if ← goesOnWith "0x" then commit (based start 16)
  else if ← goesOnWith "0o" then commit (based start 8)
  else if ← goesOnWith "0b" then commit (based start 2)
  else signedNumber start

end Schematic.Toml
