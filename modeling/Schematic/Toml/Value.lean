import Schematic.Toml.Reader

/-!
# TOML values

A document is a table of tables and values. Tables can be written in several ways, and
the way decides whether more can be added to them further down.

* `Value`, `Entries`: values, and tables as lists of keys with values.
* `alter`: a change of a table within tables.
* `Entries.assign`, `Entries.openTable`, `Entries.openItem`: what lines of a document do.
-/

namespace Schematic.Toml

/-- A key and the place where it stands. -/
structure Key where
  text : String
  place : Place
deriving DecidableEq, Repr

/-- How a table came to be. -/
inductive Origin where
  /-- By braces; nothing can be added. -/
  | braces
  /-- By the header of a table within it. -/
  | implied
  /-- By a dotted key. -/
  | dotted
  /-- By a header of its own. -/
  | header
deriving DecidableEq, Repr

/-- A value. Dates and times are not told apart. -/
inductive Value where
  | text (s : String)
  | integer (n : Int)
  | float (x : Float)
  | boolean (b : Bool)
  | dateTime
  | array (items : List (Place × Value))
  /-- The items that headers in double brackets begin, each with the place of its header. -/
  | tables (items : List (Place × List (Key × Place × Value)))
  | table (origin : Origin) (entries : List (Key × Place × Value))

/-- The keys of a table in order, each with its value and the place of the value. -/
abbrev Entries := List (Key × Place × Value)

namespace Entries

/-- The value of a key. -/
def get? (entries : Entries) (key : Key) : Option Value :=
  (entries.find? fun (k, _, _) => k.text == key.text).map fun (_, _, value) => value

/-- The table with another value for a key that it has. -/
def replace (entries : Entries) (key : Key) (value : Value) : Entries :=
  entries.map fun (k, place, old) =>
    if k.text = key.text then (k, place, value) else (k, place, old)

/-- The table without a key. -/
def erase (entries : Entries) (key : Key) : Entries :=
  entries.filter fun (k, _, _) => k.text != key.text

/-- The table with another key behind the ones it has. -/
def add (entries : Entries) (key : Key) (place : Place) (value : Value) : Entries :=
  entries ++ [(key, place, value)]

end Entries

/-- A change of a table that may be refused. -/
abbrev Change := Origin → Entries → Option Entries

/-- **Change a table within tables**, down a path of keys. Keys that are not there yet get
tables. Of an array of tables the last one is meant. A dotted key does not go into a
table with a header of its own, and nothing goes into braces. -/
def alter (fresh : Origin) (change : Change) : List Key → Change
  | [], origin, entries => change origin entries
  | key :: path, _, entries =>
    match Entries.get? entries key with
    | none => do
      let inner ← alter fresh change path fresh []
      return Entries.add entries key key.place (.table fresh inner)
    | some (.table origin inner) =>
      if origin = .braces ∨ fresh = .dotted ∧ origin = .header then none
      else do
        let inner ← alter fresh change path origin inner
        return Entries.replace entries key (.table origin inner)
    | some (.tables items) => do
      let (place, last) ← items.getLast?
      let inner ← alter fresh change path .header last
      return Entries.replace entries key (.tables (items.dropLast ++ [(place, inner)]))
    | some _ => none

/-- Give a dotted key a value. Only tables that came to be by dotted keys take one from
a longer key, and only the others one from a single key. -/
def assign (path : List Key) (key : Key) (place : Place) (value : Value) : Change :=
  alter .dotted (fun origin entries =>
    if (origin = .dotted) = path.isEmpty ∨ (Entries.get? entries key).isSome then none
    else some (Entries.add entries key place value)) path

/-- Begin the table of a header that stands at a place. It may have come to be by headers
of tables within it; then it moves behind the tables that came to be since. -/
def openTable (place : Place) (path : List Key) (key : Key) : Change :=
  alter .implied (fun _ entries =>
    match Entries.get? entries key with
    | none => some (Entries.add entries key place (.table .header []))
    | some (.table .implied inner) =>
      some (Entries.add (Entries.erase entries key) key place (.table .header inner))
    | some _ => none) path

/-- Begin an item of an array of tables by a header that stands at a place. -/
def openItem (place : Place) (path : List Key) (key : Key) : Change :=
  alter .implied (fun _ entries =>
    match Entries.get? entries key with
    | none => some (Entries.add entries key place (.tables [(place, [])]))
    | some (.tables items) =>
      some (Entries.replace entries key (.tables (items ++ [(place, [])])))
    | some _ => none) path

end Schematic.Toml
