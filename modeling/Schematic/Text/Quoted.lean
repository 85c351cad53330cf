import Schematic.Text.Visible

/-!
# Quoted text

Text between double quotes, in two forms. A source escapes only the quote and the
backslash, and reads any escaped character as itself. A listing also escapes what
cannot be seen.

* `quote`: the form of a source; `Lexeme.quoted?` reads it back.
* `listed`: the form of a listing.
-/

namespace Schematic.Text

/-- The characters of a text with a backslash before each quote and backslash. -/
def escape : List Char → List Char
  | [] => []
  | c :: rest => if c = '"' ∨ c = '\\' then '\\' :: c :: escape rest else c :: escape rest

/-- A text in double quotes, as a source spells it. -/
def quote (text : String) : String := String.ofList ('"' :: escape text.toList ++ ['"'])

/-- A character in a listing: itself if it is visible, else its escape. -/
def listedChar (c : Char) : List Char :=
  match c with
  | '\x00' => ['\\', '0']
  | '\t' => ['\\', 't']
  | '\r' => ['\\', 'r']
  | '\n' => ['\\', 'n']
  | '"' => ['\\', '"']
  | '\\' => ['\\', '\\']
  | c =>
    if isVisible c then [c]
    else '\\' :: 'u' :: '{' :: Nat.toDigits 16 c.toNat ++ ['}']

/-- A text in double quotes, as a listing shows it. -/
def listed (text : String) : String :=
  String.ofList ('"' :: text.toList.flatMap listedChar ++ ['"'])

end Schematic.Text
