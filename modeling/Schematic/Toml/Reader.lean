/-!
# Reading TOML

A reader takes characters from the front of a text. Where it fails is told by the text
from there on. Once it is clear what a text is meant to be, a failure is final; before
that, something else may be tried.

* `Reader`: what takes characters, with the ways to take one or some.
* `commit`, `attempt`: a reader whose failures are final, and one that may find nothing.
* `many`, `separated`: as many items as there are, and the same with marks between them.
* `endLine`: the end of a line, after blanks and a comment.
* `skipFill`: blanks, comments and ends of lines between the items of an array.
-/

namespace Schematic.Toml

/-- A place in a text: the characters from there on. -/
abbrev Place := List Char

/-- Where a text could not be read, and whether nothing else can be tried. -/
structure Failure where
  place : Place
  final : Bool
deriving DecidableEq, Repr

/-- What takes characters from the front of a text, or fails at a place. -/
abbrev Reader := StateT Place (Except Failure)

variable {β : Type}

/-- No way to go on from a place. -/
def failAt (place : Place) : Reader β := fun _ => .error ⟨place, false⟩

/-- No way to go on. -/
def fail : Reader β := fun rest => .error ⟨rest, false⟩

/-- A reader whose failures are final. -/
def commit (reader : Reader β) : Reader β := fun rest =>
  (reader rest).mapError fun failure => { failure with final := true }

/-- What a reader takes. If it fails, but not for good, nothing is taken. -/
def attempt (reader : Reader β) : Reader (Option β) := fun rest =>
  match reader rest with
  | .ok (x, rest) => .ok (some x, rest)
  | .error failure => if failure.final then .error failure else .ok (none, rest)

/-- The next character. -/
def peek : Reader (Option Char) := fun rest => .ok (rest.head?, rest)

/-- Whether the text goes on with certain characters. -/
def goesOnWith (s : String) : Reader Bool := fun rest => .ok (s.toList.isPrefixOf rest, rest)

/-- Take certain characters. -/
def skip (s : String) : Reader Unit := fun rest =>
  if s.toList.isPrefixOf rest then .ok ((), rest.drop s.length) else .error ⟨rest, false⟩

/-- Take the characters of a class, as many as there are. -/
def takeClass (p : Char → Bool) : Reader (List Char) := fun rest =>
  .ok (rest.takeWhile p, rest.dropWhile p)

/-- Take the characters of a class, at least one. -/
def takeClass₁ (p : Char → Bool) : Reader (List Char) := do
  match ← takeClass p with
  | [] => fail
  | taken => return taken

/-- Run a reader with as many steps as there are characters, and one more. -/
def withFuel (reader : Nat → Reader β) : Reader β := fun rest => reader (rest.length + 1) rest

/-- Take items, at most so many. -/
def upTo (item : Reader β) : Nat → Reader (List β)
  | 0 => return []
  | fuel + 1 => do
    match ← attempt item with
    | none => return []
    | some x => return x :: (← upTo item fuel)

/-- **Take items**, as many as there are. -/
def many (item : Reader β) : Reader (List β) := withFuel (upTo item)

/-- Take items with a mark between them, at least one. A mark without an item behind it
is not taken. -/
def separated₁ (mark : String) (item : Reader β) : Reader (List β) := do
  let first ← item
  return first :: (← many (do
    skip mark
    item))

/-- Take items with a mark between them, as many as there are. -/
def separated (mark : String) (item : Reader β) : Reader (List β) := do
  return (← attempt (separated₁ mark item)).getD []

/-- Whether a character is a blank. -/
def isBlank (c : Char) : Bool := c == ' ' || c == '\t'

/-- Whether a character may stand in texts and comments. -/
def isPrintable (c : Char) : Bool := c == '\t' || ' ' ≤ c && c != '\x7f'

/-- Take blanks. -/
def skipBlanks : Reader Unit := do discard (takeClass isBlank)

/-- The text after an end of line. -/
def afterLineBreak? : Place → Option Place
  | '\n' :: rest => some rest
  | '\r' :: '\n' :: rest => some rest
  | _ => none

/-- Take an end of line. -/
def skipLineBreak : Reader Unit := fun rest =>
  match afterLineBreak? rest with
  | some rest => .ok ((), rest)
  | none => .error ⟨rest, false⟩

/-- Take a comment, if there is one. -/
def skipComment : Reader Unit := do
  if ← goesOnWith "#" then discard (takeClass isPrintable)

/-- **Take the end of a line**: blanks, a comment, and the line break if the text goes on. -/
def endLine : Reader Unit := do
  skipBlanks
  skipComment
  if (← peek).isSome then skipLineBreak

/-- The text after blanks, comments and ends of lines. A comment has to end with its
line; a character that does so otherwise is passed before the failure is told. -/
def afterFill (inComment : Bool) : Place → Except Failure Place
  | [] => if inComment then .error ⟨[], false⟩ else .ok []
  | '\r' :: '\n' :: rest => afterFill false rest
  | c :: rest =>
    if c = '\n' then afterFill false rest
    else if c = '\r' then .error ⟨rest, false⟩
    else if inComment then if isPrintable c then afterFill true rest else .error ⟨rest, false⟩
    else if isBlank c then afterFill false rest
    else if c = '#' then afterFill true rest
    else .ok (c :: rest)

/-- Take blanks, comments and ends of lines. -/
def skipFill : Reader Unit := fun rest => (afterFill false rest).map ((), ·)

end Schematic.Toml
