import Schematic.Text.Columns
import Schematic.Text.Space

/-!
# Excerpts

The lines of a source that a message is about, drawn with line numbers, a mark under
the place and the message at the mark. Places are counted in characters. A place on
one line is underlined; one that spans lines is marked by an arrow at each end. A mark
that would lie beyond the end of the source is left out.

* `SourceLine.ofText`: the lines of a source.
* `Excerpt.lines`: the drawing of one marked place.
-/

namespace Schematic

/-- A line of a source: the characters before it and its own, with the ones that end it. -/
structure SourceLine where
  offset : Nat
  text : List Char
deriving DecidableEq, Repr

namespace SourceLine

/-- The number of the character after a line. -/
def stop (line : SourceLine) : Nat := line.offset + line.text.length

/-- The characters up to the first end of a line, and the rest. A carriage return and
a line feed end a line together. -/
def cut : List Char → List Char × List Char
  | [] => ([], [])
  | '\r' :: '\n' :: rest => (['\r', '\n'], rest)
  | c :: rest =>
    if Text.endsLine c then ([c], rest)
    else
      let (line, after) := cut rest
      (c :: line, after)

theorem cut_append (cs : List Char) : (cut cs).1 ++ (cut cs).2 = cs := by
  fun_induction cut cs with
  | case1 => rfl
  | case2 => rfl
  | case3 => rfl
  | case4 => simp_all

theorem cut_ne_nil (c : Char) (cs : List Char) : (cut (c :: cs)).1 ≠ [] := by
  unfold cut
  split <;> try split
  all_goals simp_all

/-- The lines of a text whose first character is number `offset`. -/
def ofList (offset : Nat) (text : List Char) : List SourceLine :=
  match text with
  | [] => []
  | c :: cs =>
    let line := (cut (c :: cs)).1
    ⟨offset, line⟩ :: ofList (offset + line.length) (cut (c :: cs)).2
termination_by text.length
decreasing_by
  have joined := congrArg List.length (cut_append (c :: cs))
  have := List.length_pos_iff.mpr (cut_ne_nil c cs)
  simp only [List.length_append] at joined
  omega

/-- **The lines of a source.** An empty source is one empty line; a break at the end
begins no further line. -/
def ofText (source : String) : List SourceLine :=
  match ofList 0 source.toList with
  | [] => [⟨0, []⟩]
  | lines => lines

end SourceLine

/-- A place in a source, in characters, and the message about it. -/
structure Excerpt where
  source : String
  file : String
  start : Nat
  stop : Nat
  message : String

namespace Excerpt

/-- Each character is drawn with a width; a tab reaches to the next fourth column, and
other white space is one blank. -/
def width (column : Nat) (c : Char) : Nat :=
  if c == '\t' then (column / 4 + 1) * 4 - column
  else if Text.isSpace c then 1
  else Text.columns c

/-- A line of the source as it is drawn. -/
def drawn (text : List Char) : List Char :=
  text.zipIdx.flatMap fun (c, column) =>
    if Text.isSpace c then List.replicate (width column c) ' ' else [c]

/-- `count` marks under a line: the mark of each column, widened to the character
above it by its tail. -/
def marks (text : List Char) (count : Nat) (mark : Nat → Char × Char) : List Char :=
  (List.range count).flatMap fun column =>
    let (first, tail) := mark column
    match (text[column]?).elim 1 (width column) with
    | 0 => []
    | w + 1 => first :: List.replicate w tail

/-- The number of the line that holds a character, and the column in it. The place
after the last character is on the last line. -/
def locate? (lines : List SourceLine) (place : Nat) : Option (Nat × Nat) :=
  let total := lines.foldl (fun total line => total + line.text.length) 0
  if total < place then none
  else
    let index := (lines.takeWhile (·.offset ≤ place)).length - 1
    (lines[index]?).map fun line => (index, place - line.offset)

/-- The margin left of a line with its number; numbers take `digits` columns. -/
def numbered (digits index : Nat) : List Char :=
  let number := Nat.toDigits 10 (index + 1)
  ' ' :: List.replicate (digits - number.length) ' ' ++ number ++ [' ', '│', ' ']

/-- The margin left of a line without a number. -/
def blank (digits : Nat) (bar : Char) : List Char := List.replicate (digits + 2) ' ' ++ [bar, ' ']

/-- The drawing of a place on one line: the line, its underline and the message. -/
def underlined (e : Excerpt) (digits index : Nat) (line : SourceLine) : List (List Char) :=
  let text := Text.trimEnd line.text
  let count := e.stop - line.offset + 2
  let middle := max ((e.start + e.stop) / 2) e.start - line.offset
  let marked := fun column => e.start ≤ line.offset + column && line.offset + column < e.stop
  let under := marks text count fun column =>
    if column == middle then if marked column then ('┬', '─') else ('│', ' ')
    else if marked column then ('─', '─') else (' ', ' ')
  let arrow := marks text count fun column =>
    if column == middle then ('╰', '─') else if middle < column then ('─', '─') else (' ', ' ')
  [numbered digits index ++ drawn text, blank digits '│' ++ under,
    blank digits '│' ++ arrow ++ ' ' :: e.message.toList]

/-- The drawing of a place on one line; nothing is marked if it ends after the line. -/
def inline (e : Excerpt) (digits index : Nat) (line : SourceLine) : List (List Char) :=
  if e.stop ≤ line.stop then e.underlined digits index line else [blank digits '│']

/-- The last line of a place that spans lines, with an arrow to it and the message. -/
def ending (e : Excerpt) (digits index : Nat) (line : SourceLine) : List (List Char) :=
  let text := Text.trimEnd line.text
  let count := line.text.length + 2
  [numbered digits index ++ ['├', '─', '▶', ' '] ++ drawn text,
    blank digits '│' ++ ['│', ' ', ' ', ' '] ++ marks text count fun _ => (' ', ' '),
    blank digits '│' ++ ['╰', '─', '─', '─'] ++ (marks text count fun _ => ('─', '─')) ++
      ' ' :: e.message.toList]

/-- The drawing of a place from one line to a later one: both lines with an arrow, a
gap for the lines between, and the message under the last. If the place ends after the
last line, that line belongs to the gap. -/
def spanning (e : Excerpt) (digits first last : Nat) (start stop : SourceLine) : List (List Char) :=
  let opening := numbered digits first ++ ['╭', '─', '▶', ' '] ++ drawn (Text.trimEnd start.text)
  let gap := [blank digits '┆' ++ ['┆', ' ', ' ', ' ']]
  if e.stop ≤ stop.stop then
    [opening] ++ (if first + 1 < last then gap else []) ++ e.ending digits last stop
  else [opening] ++ gap

/-- **The drawing of an excerpt**, line by line. A place outside the source has none. -/
def lines (e : Excerpt) : List (List Char) :=
  let source := SourceLine.ofText e.source
  match locate? source e.start, locate? source (max (e.stop - 1) e.start) with
  | some (first, column), some (last, _) =>
    match source[first]?, source[last]? with
    | some start, some stop =>
      let digits := (Nat.toDigits 10 (last + 1)).length
      let place := toString (first + 1) ++ ":" ++ toString (column + 1)
      let head := List.replicate (digits + 2) ' '
      [head ++ ['╭', '─', '['] ++ (e.file ++ ":" ++ place).toList ++ [']'], head ++ ['│']] ++
        (if first == last then e.inline digits first start
          else e.spanning digits first last start stop) ++
        [List.replicate (digits + 2) '─' ++ ['╯']]
    | _, _ => []
  | _, _ => []

end Excerpt

end Schematic
