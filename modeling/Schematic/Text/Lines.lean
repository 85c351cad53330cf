/-!
# Lines

A text is split where lines end. A carriage return before the end of a line belongs to
it, and an end of line at the end of the text begins no further line.

* `lines`: the lines of a text.
-/

namespace Schematic.Text

/-- A line without a carriage return at its end. -/
def dropReturn (line : List Char) : List Char :=
  if line.getLast? = some '\r' then line.dropLast else line

/-- The pieces of a text between its line feeds, one more than there are line feeds. -/
def pieces : List Char → List (List Char)
  | [] => [[]]
  | c :: rest =>
    if c = '\n' then [] :: pieces rest
    else match pieces rest with
      | [] => [[c]]
      | piece :: more => (c :: piece) :: more

/-- The lines among pieces: the last piece is one only if it is not empty, and it keeps
its carriage return, since no line feed follows it. -/
def linesOfPieces : List (List Char) → List (List Char)
  | [] => []
  | [last] => if last.isEmpty then [] else [last]
  | piece :: rest => dropReturn piece :: linesOfPieces rest

/-- **The lines of a text.** -/
def lines (text : String) : List String :=
  (linesOfPieces (pieces text.toList)).map String.ofList

end Schematic.Text
