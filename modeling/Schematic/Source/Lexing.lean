import Schematic.Source.Span
import Schematic.Source.Token
import Schematic.Text.Letter

/-!
# Reading tokens

A source is cut into tokens from left to right, each as long as possible. Blanks are
skipped; what begins no token is set aside, and nothing is dropped silently.

* `Lexeme.atHead?`: the longest token at the head of a text.
* `lex`: the tokens of a source with their places, or all pieces that are none.
-/

namespace Schematic

variable {α : Type}

/-- A token and the number of characters it is written with. -/
structure Lexeme (α : Type) where
  token : Token α
  length : Nat
deriving DecidableEq, Repr

namespace Lexeme

/-- Blanks separate tokens and mean nothing else. -/
def isBlank (c : Char) : Bool := c == ' ' || c == '\t' || c == '\r'

/-- A name starts with a letter, a number or an underscore. -/
def isNameStart (c : Char) : Bool := c == '_' || Text.isLetterOrNumber c

/-- A name goes on with the same characters and with dashes. -/
def isNamePart (c : Char) : Bool := c == '-' || isNameStart c

/-- The name or keyword at the head of a text. -/
def word? : List Char → Option (Lexeme α)
  | [] => none
  | c :: rest =>
    if isNameStart c then
      let text := c :: rest.takeWhile isNamePart
      some ⟨.ofWord (String.ofList text), text.length⟩
    else none

/-- The value of decimal digits. -/
def digitsValue (digits : List Char) : Nat :=
  digits.foldl (fun n c => 10 * n + (c.toNat - '0'.toNat)) 0

/-- The number at the head of a text: digits, maybe a fraction, maybe a sign before. -/
def number? [Numeral α] (text : List Char) : Option (Lexeme α) :=
  let (negative, unsigned) := match text with
    | '-' :: rest => (true, rest)
    | all => (false, all)
  let whole := unsigned.takeWhile Char.isDigit
  let fraction := match unsigned.drop whole.length with
    | '.' :: rest => rest.takeWhile Char.isDigit
    | _ => []
  let point := if fraction.isEmpty then 0 else 1
  if whole.isEmpty then none
  else some
    { token := .number
        (Numeral.ofDecimal negative (digitsValue (whole ++ fraction)) fraction.length)
      length := negative.toNat + whole.length + point + fraction.length }

/-- What a quoted text holds: its characters without escapes, and how many characters
were read up to and with the closing quote. A text that does not end gives the
number of characters that could belong to it; a break after a backslash ends it. -/
def closing : List Char → Except Nat (List Char × Nat)
  | '"' :: _ => .ok ([], 1)
  | '\\' :: c :: rest =>
    if c = '\n' then .error 0
    else match closing rest with
      | .ok (held, read) => .ok (c :: held, read + 2)
      | .error read => .error (read + 2)
  | ['\\'] | [] => .error 0
  | c :: rest =>
    match closing rest with
    | .ok (held, read) => .ok (c :: held, read + 1)
    | .error read => .error (read + 1)

/-- The quoted text at the head of a text. -/
def quoted? : List Char → Option (Lexeme α)
  | '"' :: rest =>
    match closing rest with
    | .ok (held, read) => some ⟨.quoted (String.ofList held), read + 1⟩
    | .error _ => none
  | _ => none

/-- The hexadecimal colour at the head of a text. Any letters and digits belong to it. -/
def hex? : List Char → Option (Lexeme α)
  | '#' :: rest =>
    let digits := rest.takeWhile Char.isAlphanum
    if digits.isEmpty then none
    else some ⟨.hex (String.ofList ('#' :: digits)), digits.length + 1⟩
  | _ => none

/-- The comment at the head of a text, up to the end of the line. -/
def comment? : List Char → Option (Lexeme α)
  | '/' :: '/' :: rest =>
    let text := rest.takeWhile (· ≠ '\n')
    some ⟨.comment (String.ofList text), text.length + 2⟩
  | _ => none

/-- The symbol at the head of a text. -/
def symbol? (text : List Char) : Option (Lexeme α) :=
  (Token.ofSymbol? text).map fun (token, length) => ⟨token, length⟩

/-- The longer of two lexemes, the first one of two of the same length. -/
def longer? (first second : Option (Lexeme α)) : Option (Lexeme α) :=
  match first, second with
  | some l, some m => if l.length < m.length then some m else some l
  | some l, none => some l
  | none, m => m

/-- **The longest token** at the head of a text. Digits alone are a number, though they
could be a name. -/
def atHead? [Numeral α] (text : List Char) : Option (Lexeme α) :=
  longer? (number? text) <| longer? (word? text) <| longer? (comment? text) <|
    longer? (quoted? text) <| longer? (hex? text) (symbol? text)

end Lexeme

/-- How many characters to set aside where no token begins: one, or as much as could
have been a quoted text. -/
def strayLength : List Char → Nat
  | '"' :: rest =>
    match Lexeme.closing rest with
    | .ok _ => 1
    | .error read => read + 1
  | _ => 1

/-- A piece of a source: a token, or characters that begin none. -/
inductive Piece (α : Type) where
  | token (token : Token α)
  | stray (text : String)
deriving DecidableEq, Repr

/-- The pieces of a text whose first character is at byte `offset`. -/
def pieces [Numeral α] (offset : Nat) (text : List Char) : List (Located (Piece α)) :=
  match text with
  | [] => []
  | c :: rest =>
    if Lexeme.isBlank c then pieces (offset + c.utf8Size) rest
    else
      let (piece, length) := match Lexeme.atHead? (α := α) text with
        | some lexeme => (fun _ : List Char => Piece.token lexeme.token, lexeme.length)
        | none => (fun cs : List Char => Piece.stray (String.ofList cs), strayLength text)
      let taken := c :: rest.take (length - 1)
      let stop := offset + byteLength taken
      ⟨piece taken, ⟨offset, stop⟩⟩ :: pieces stop (rest.drop (length - 1))
termination_by text.length
decreasing_by
  · exact Nat.lt_succ_self _
  · simp only [List.length_drop, List.length_cons]
    omega

/-- The tokens among pieces. -/
def tokensOf (all : List (Located (Piece α))) : List (Located (Token α)) :=
  all.filterMap fun p => match p.value with
    | .token t => some ⟨t, p.span⟩
    | .stray _ => none

/-- The pieces that are no tokens. -/
def straysOf (all : List (Located (Piece α))) : List (Located String) :=
  all.filterMap fun p => match p.value with
    | .token _ => none
    | .stray text => some ⟨text, p.span⟩

/-- The tokens of a source, or, if there are any, the pieces that are no tokens. -/
def lex [Numeral α] (source : String) : Except (List (Located String)) (List (Located (Token α))) :=
  let all := pieces 0 source.toList
  let strays := straysOf all
  if strays.isEmpty then .ok (tokensOf all) else .error strays

end Schematic
