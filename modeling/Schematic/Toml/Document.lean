import Schematic.Toml.Number
import Schematic.Toml.Quoted

/-!
# TOML documents

A document is read line by line: a line gives a key a value, or begins a table or an
item of an array of tables that the lines after it belong to.

* `key`, `pair`: a key with dots, and a key with its value.
* `value`: a value, with at most so many values around it.
* `Document.parse`: the table that a text spells, or the place where it cannot be read.
-/

namespace Schematic.Toml

/-- Whether a character may stand in a key without quotes. -/
def isBare (c : Char) : Bool := c.isAlphanum || c == '_' || c == '-'

/-- Take a key without dots. -/
def simpleKey : Reader Key := do
  let place ← get
  let text ← match ← peek with
    | some '"' => quotedLine '"'
    | some '\'' => quotedLine '\''
    | _ => String.ofList <$> takeClass₁ isBare
  return ⟨text, place⟩

/-- Take a key without dots, and the blanks around it. -/
def spacedKey : Reader Key := do
  skipBlanks
  let key ← simpleKey
  skipBlanks
  return key

/-- How many values may stand around each other, and how many keys in a row. -/
def nestingLimit : Nat := 80

/-- Take a key: the keys before its last dot and the one after it. -/
def key : Reader (List Key × Key) := do
  let start ← get
  let keys ← separated₁ "." spacedKey
  match keys.getLast? with
  | some last =>
    if keys.length < nestingLimit then return (keys.dropLast, last) else failAt start
  | none => failAt start

/-- A key with a value, and the place of the value. -/
structure Pair where
  path : List Key
  key : Key
  place : Place
  value : Value

/-- Take an equals sign and a value. -/
def placed (value : Reader Value) : Reader (Place × Value) := do
  skip "="
  skipBlanks
  return (← get, ← value)

/-- Take a key, an equals sign and a value. -/
def pair (value : Reader Value) : Reader Pair := do
  let (path, key) ← key
  let (place, value) ← commit (placed value)
  return ⟨path, key, place, value⟩

/-- Take an item of an array and its place, with what may stand around it. -/
def item (value : Reader Value) : Reader (Place × Value) := do
  skipFill
  let placed := (← get, ← value)
  skipFill
  return placed

/-- Take the items of an array up to its end. A comma may follow the last one. -/
def items (value : Reader Value) : Reader (List (Place × Value)) := do
  if ← goesOnWith "]" then
    skip "]"
    return []
  let items ← separated "," (item value)
  if !items.isEmpty then discard (attempt (skip ","))
  skipFill
  skip "]"
  return items

/-- Take an array. -/
def array (value : Reader Value) : Reader Value := commit do
  skip "["
  return .array (← items value)

/-- The table of pairs, unless they contradict. -/
def Entries.ofPairs? (pairs : List Pair) : Option Entries :=
  pairs.foldlM (fun entries p => assign p.path p.key p.place p.value .braces entries) []

/-- Take a pair within braces, and the blanks after it. -/
def bracedPair (value : Reader Value) : Reader Pair := do
  let pair ← pair value
  skipBlanks
  return pair

/-- Take a table in braces. No comma may follow its last pair. -/
def bracedTable (value : Reader Value) : Reader Value := commit do
  skip "\x7b"
  let start ← get
  let pairs ← separated "," (bracedPair value)
  skipBlanks
  match Entries.ofPairs? pairs with
  | none => failAt start
  | some entries =>
    skip "\x7d"
    return .table .braces entries

/-- **Take a value**, with at most so many values around it. -/
def value : Nat → Reader Value
  | 0 => fail
  | depth + 1 => do
    match ← peek with
    | some '"' => .text <$> quoted '"'
    | some '\'' => .text <$> quoted '\''
    | some '[' => if depth = 0 then commit fail else array (value depth)
    | some '{' => if depth = 0 then commit fail else bracedTable (value depth)
    | some 't' => do
      commit (skip "true")
      return .boolean true
    | some 'f' => do
      commit (skip "false")
      return .boolean false
    | some c =>
      if c.isDigit || c == '+' || c == '-' || c == 'i' || c == 'n' then number else fail
    | none => fail

/-- The table read so far, and the path of the table that lines belong to. -/
structure State where
  entries : Entries
  header : List Key

/-- Give a key a value in the table that lines belong to. -/
def State.assign? (s : State) (p : Pair) : Option State :=
  (alter .implied (assign p.path p.key p.place p.value) s.header .header s.entries).map
    ({ s with entries := · })

/-- Begin a table or an item, which lines belong to from now on. -/
def State.begin? (s : State) (item : Bool) (place : Place) (path : List Key) (key : Key) :
    Option State :=
  ((if item then openItem place path key else openTable place path key) .header s.entries).map
    (⟨·, path ++ [key]⟩)

/-- Take a header. A bracket at the end of the text begins none. -/
def header (s : State) : Reader State := do
  let start ← get
  if start.length = 1 then fail
  let item ← goesOnWith "[["
  skip (if item then "[[" else "[")
  let (path, key) ← key
  skip (if item then "]]" else "]")
  endLine
  match s.begin? item start path key with
  | some s => return s
  | none => failAt start

/-- Take a line. -/
def line (s : State) : Reader State := do
  match ← peek with
  | some '#' =>
    endLine
    return s
  | some '[' => header s
  | some '\n' | some '\r' =>
    skipLineBreak
    return s
  | _ =>
    let start ← get
    let pair ← pair (value nestingLimit)
    endLine
    match s.assign? pair with
    | some s => return s
    | none => failAt start

/-- Take lines to the end of the text. -/
def lines : Nat → State → Reader State
  | 0, _ => fail
  | fuel + 1, s => do
    skipBlanks
    if (← peek).isNone then return s
    lines fuel (← line s)

/-- The text after a byte order mark. -/
def afterMark : Place → Place
  | '\uFEFF' :: rest => rest
  | rest => rest

namespace Document

/-- **The table that a text spells**, or the place where it cannot be read. -/
def parse (text : String) : Except Place Entries :=
  match withFuel (fun fuel => lines fuel ⟨[], []⟩) (afterMark text.toList) with
  | .ok (s, _) => .ok s.entries
  | .error failure => .error failure.place

end Document

end Schematic.Toml
