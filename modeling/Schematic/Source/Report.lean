import Schematic.Source.Excerpt
import Schematic.Source.Parsing

/-!
# Error reports

A syntax error as it is shown to the author of a source: the message, then the lines
it is about with the message and what was expected instead.

* `SyntaxError.report`: the report of an error.
-/

namespace Schematic.SyntaxError

variable {α : Type} [Numeral α]

/-- The message at the mark: the error, and on a second line what was expected. -/
def hint (e : SyntaxError α) : String :=
  if e.expected.isEmpty then e.message
  else e.message ++ "\nExpected: " ++ ", ".intercalate e.expected

/-- **The report of an error** in a source read from a file. The excerpt counts its
places in characters and takes the numbers of the span as they are. -/
def report (e : SyntaxError α) (source file : String) : String :=
  let excerpt : Excerpt := ⟨source, file, e.span.start, e.span.stop, e.hint⟩
  let lines := ("Error: " ++ e.message).toList :: excerpt.lines
  String.ofList (lines.flatMap (· ++ ['\n']))

end Schematic.SyntaxError
