import Schematic.Number.Numeral
import Schematic.Text.Quoted

/-!
# Tokens

The words of the diagram language. A line break is a token of its own, since it ends
declarations and fields, and comments are kept so that a source can be printed back.

* `Token`: the kinds of tokens, with what they carry.
* `Token.ofWord`, `Token.ofSymbol?`: keywords and symbols by their spelling.
* `Token.description`, `Token.constructorText`: a token in an error message.
-/

namespace Schematic

/-- A token; numbers are of type `α`. -/
inductive Token (α : Type) where
  | boxStyle
  | box
  | connect
  | constrain
  | braceOpen
  | braceClose
  | colon
  | semicolon
  | dot
  | lineBreak
  | plus
  | minus
  | star
  | slash
  | lessOrEqual
  | greaterOrEqual
  | equalEqual
  | equals
  | less
  | greater
  | name (text : String)
  | quoted (text : String)
  | number (value : α)
  | hex (text : String)
  | comment (text : String)
deriving DecidableEq, Repr

namespace Token

variable {α : Type}

/-- The token a word stands for: one of the four keywords, or a name. -/
def ofWord : String → Token α
  | "box-style" => boxStyle
  | "box" => box
  | "connect" => connect
  | "constrain" => constrain
  | text => name text

/-- The symbol that a text of one or two characters begins with, and its length. -/
def ofSymbol? : List Char → Option (Token α × Nat)
  | '<' :: '=' :: _ => some (lessOrEqual, 2)
  | '>' :: '=' :: _ => some (greaterOrEqual, 2)
  | '=' :: '=' :: _ => some (equalEqual, 2)
  | '{' :: _ => some (braceOpen, 1)
  | '}' :: _ => some (braceClose, 1)
  | ':' :: _ => some (colon, 1)
  | ';' :: _ => some (semicolon, 1)
  | '.' :: _ => some (dot, 1)
  | '\n' :: _ => some (lineBreak, 1)
  | '+' :: _ => some (plus, 1)
  | '-' :: _ => some (minus, 1)
  | '*' :: _ => some (star, 1)
  | '/' :: _ => some (slash, 1)
  | '=' :: _ => some (equals, 1)
  | '<' :: _ => some (less, 1)
  | '>' :: _ => some (greater, 1)
  | _ => none

/-- The spelling of a keyword or a symbol that is quoted in messages. -/
def fixedText? : Token α → Option String
  | boxStyle => some "box-style"
  | box => some "box"
  | connect => some "connect"
  | constrain => some "constrain"
  | braceOpen => some "\x7b"
  | braceClose => some "\x7d"
  | colon => some ":"
  | semicolon => some ";"
  | dot => some "."
  | plus => some "+"
  | minus => some "-"
  | star => some "*"
  | slash => some "/"
  | lessOrEqual => some "<="
  | greaterOrEqual => some ">="
  | equalEqual => some "=="
  | equals => some "="
  | less => some "<"
  | greater => some ">"
  | lineBreak | name _ | quoted _ | number _ | hex _ | comment _ => none

/-- Whether a token is one of the four keywords. -/
def isKeyword : Token α → Bool
  | boxStyle | box | connect | constrain => true
  | _ => false

/-- The token as a message names it. -/
def description [Numeral α] (t : Token α) : String :=
  match t with
  | name text => "identifier '" ++ text ++ "'"
  | quoted text => "string \"" ++ text ++ "\""
  | number value => "number " ++ Numeral.plain value
  | hex text => "color " ++ text
  | comment _ => "comment"
  | lineBreak => "end of line"
  | t =>
    let spelling := "'" ++ t.fixedText?.getD "" ++ "'"
    if t.isKeyword then "keyword " ++ spelling else spelling

/-- The token as the error of a single equation shows it: the kind in camel case and,
in parentheses, what it carries. -/
def constructorText [Numeral α] : Token α → String
  | boxStyle => "BoxStyle"
  | box => "Box"
  | connect => "Connect"
  | constrain => "Constrain"
  | braceOpen => "BraceOpen"
  | braceClose => "BraceClose"
  | colon => "Colon"
  | semicolon => "Semicolon"
  | dot => "Dot"
  | lineBreak => "Newline"
  | plus => "Plus"
  | minus => "Minus"
  | star => "Star"
  | slash => "Slash"
  | lessOrEqual => "LessOrEqual"
  | greaterOrEqual => "GreaterOrEqual"
  | equalEqual => "EqualEqual"
  | equals => "Equals"
  | less => "Less"
  | greater => "Greater"
  | name text => "Ident(" ++ Text.listed text ++ ")"
  | quoted text => "String(" ++ Text.listed text ++ ")"
  | number value => "Number(" ++ Numeral.listing value ++ ")"
  | hex text => "HexColor(" ++ Text.listed text ++ ")"
  | comment text => "LineComment(" ++ Text.listed text ++ ")"

end Token

end Schematic
