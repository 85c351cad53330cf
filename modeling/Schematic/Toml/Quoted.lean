import Schematic.Toml.Reader

/-!
# Quoted texts in TOML

Texts stand between double quotes, with escapes, or between single quotes, without.
Three quotes begin a text of several lines, which may hold one or two quotes in a row.

* `quotedLine`: a text within a line.
* `quoted`: any text.
-/

namespace Schematic.Toml

/-- The value of hexadecimal digits. -/
def hexValue? (digits : List Char) : Option Nat :=
  digits.foldlM (fun n c =>
    if c.isDigit then some (16 * n + (c.toNat - '0'.toNat))
    else if 'a' ≤ c ∧ c ≤ 'f' then some (16 * n + (c.toNat - 'a'.toNat + 10))
    else if 'A' ≤ c ∧ c ≤ 'F' then some (16 * n + (c.toNat - 'A'.toNat + 10))
    else none) 0

/-- The character of so many hexadecimal digits. -/
def escapedCode (digits : Nat) : Reader Char := fun rest =>
  match hexValue? (rest.take digits) with
  | some n =>
    if rest.length < digits then .error ⟨rest, true⟩
    else if n.isValidChar then .ok (Char.ofNat n, rest.drop digits)
    else .error ⟨rest, true⟩
  | none => .error ⟨rest, true⟩

/-- The character that an escape stands for, after its backslash. A letter of ASCII that
is no escape is passed before the failure is told. -/
def escaped : Reader Char := fun rest =>
  match rest with
  | 'b' :: rest => .ok ('\x08', rest)
  | 't' :: rest => .ok ('\t', rest)
  | 'n' :: rest => .ok ('\n', rest)
  | 'f' :: rest => .ok ('\x0c', rest)
  | 'r' :: rest => .ok ('\r', rest)
  | '"' :: rest => .ok ('"', rest)
  | '\\' :: rest => .ok ('\\', rest)
  | 'u' :: rest => escapedCode 4 rest
  | 'U' :: rest => escapedCode 8 rest
  | c :: after => .error ⟨if c.toNat < 0x80 then after else rest, true⟩
  | [] => .error ⟨[], false⟩

/-- The text after blanks and ends of lines. -/
def afterBlankLines : Place → Place
  | '\r' :: '\n' :: rest => afterBlankLines rest
  | c :: rest => if isBlank c || c == '\n' then afterBlankLines rest else c :: rest
  | [] => []

/-- The text after a backslash at the end of a line: the line break and all blanks and
line breaks that follow are left out. -/
def afterContinuation? (rest : Place) : Option Place :=
  (afterLineBreak? (rest.dropWhile isBlank)).map afterBlankLines

/-- Take a character of a text of one line or of several, or an escape, and yield what it
stands for. -/
def content (quote : Char) (several : Bool) : Reader (List Char) := fun rest =>
  match rest with
  | [] => .error ⟨[], false⟩
  | c :: after =>
    if c = quote then .error ⟨rest, false⟩
    else if c = '\\' ∧ quote = '"' then
      match (if several then afterContinuation? after else none) with
      | some after => .ok ([], after)
      | none => ((fun c => [c]) <$> escaped) after
    else if isPrintable c then .ok ([c], after)
    else
      match (if several then afterLineBreak? rest else none) with
      | some after => .ok (['\n'], after)
      | none => .error ⟨rest, false⟩

/-- Take as much of a text as there is up to a quote. -/
def contents (quote : Char) (several : Bool) : Reader (List Char) :=
  List.flatten <$> many (content quote several)

/-- Take a text within a line. -/
def quotedLine (quote : Char) : Reader String := commit do
  skip (String.singleton quote)
  let text ← contents quote false
  skip (String.singleton quote)
  return String.ofList text

/-- Take one or two quotes that belong to a text of several lines, since more of it
follows them. A failure behind them is told at the place where it begins. -/
def innerQuotes (quote : Char) : Reader (List Char) := do
  let quotes ← takeClass (· == quote)
  if quotes.isEmpty || 2 < quotes.length then fail
  fun rest =>
    match content quote true rest with
    | .ok _ => .ok (quotes, rest)
    | .error failure => .error { failure with place := rest }

/-- Take a part of a text of several lines that begins with quotes. -/
def quotesAndContents (quote : Char) : Reader (List Char) := do
  let quotes ← innerQuotes quote
  return quotes ++ (← contents quote true)

/-- Take the quotes that end a text of several lines, and yield those that belong to it:
up to two in front of the last three. -/
def closingQuotes (quote : Char) : Reader (List Char) := do
  let run := ((← get).takeWhile (· == quote)).length
  let kept := List.replicate (min run 5 - 3) quote
  skip (String.ofList (kept ++ [quote, quote, quote]))
  return kept

/-- Take a text of several lines. A line break after the quotes that begin it is left out. -/
def quotedLines (quote : Char) : Reader String := commit do
  skip (String.ofList [quote, quote, quote])
  modify fun rest => (afterLineBreak? rest).getD rest
  let first ← contents quote true
  let more ← many (quotesAndContents quote)
  let last ← closingQuotes quote
  return String.ofList (first ++ more.flatten ++ last)

/-- **Take a text** between quotes. -/
def quoted (quote : Char) : Reader String := do
  if ← goesOnWith (String.ofList [quote, quote, quote]) then quotedLines quote
  else quotedLine quote

end Schematic.Toml
