import Std.Data.TreeMap
import Schematic.Model.Anchor
import Schematic.Model.Constraint

/-!
# The simplex tableau

Placement takes its solver from a third party, and this module stands in for it. Of a solver,
placement uses the step with one more constraint and the values of the variables in the end; it
works with any solver that has these, and no theorem is about this one.

Constraints are solved one after the other. A tableau expresses basic symbols by the
others, which stand for zero; slack symbols turn comparisons into equalities, and a
preference gets two symbols for how far it is missed either way. After each constraint
the sum of the misses is brought to its least value. The symbol that enters and the one
that leaves are the least possible ones, so no tableau comes up twice.

* `Row`: a symbol's expression, with the operations of elimination.
* `Tableau.add`: the tableau with one more constraint, unless it contradicts.
* `Tableau.value`: the value of a variable.
-/

namespace Schematic

/-- The quantities of a tableau. Numbers tell constraints apart. -/
inductive Symbol where
  /-- A variable of the layout, which may take any value. -/
  | external (v : Variable)
  /-- How much an inequality leaves open. -/
  | slack (constraint : Nat)
  /-- How far a preference is missed upwards. -/
  | excess (constraint : Nat)
  /-- How far a preference is missed downwards. -/
  | shortfall (constraint : Nat)
  /-- The mark of an equality, which stays zero. -/
  | dummy (constraint : Nat)
  /-- How far a new row is from being satisfied. -/
  | artificial
deriving DecidableEq, Ord, Repr

/-- Whether a symbol is a variable of the layout. -/
def Symbol.isExternal : Symbol → Bool
  | external _ => true
  | _ => false

/-- Whether a symbol is the mark of an equality. -/
def Symbol.isDummy : Symbol → Bool
  | dummy _ => true
  | _ => false

/-- Whether a symbol can take part in a change of basis: it is not negative. -/
def Symbol.isPivotable : Symbol → Bool
  | slack _ | excess _ | shortfall _ => true
  | _ => false

/-- A constant and a sum of scaled symbols. -/
structure Row (α : Type) where
  constant : α
  cells : Std.TreeMap Symbol α

namespace Row

variable {α : Type} [Scalar α]

/-- The row of a constant. -/
def ofConstant (c : α) : Row α := ⟨c, ∅⟩

/-- The least factor that counts, and the least contradiction: a hundred-millionth. -/
def tolerance : α := Scalar.one / ((100000000 : Nat) : α)

/-- Whether a number is too small to count. -/
def negligible (x : α) : Bool := if x < Scalar.zero then -x < tolerance else x < tolerance

/-- The factor of a symbol. -/
def factor (r : Row α) (s : Symbol) : α := r.cells[s]?.getD Scalar.zero

/-- The row with more of a symbol. -/
def insert (r : Row α) (s : Symbol) (c : α) : Row α :=
  let sum := match r.cells[s]? with
    | some old => old + c
    | none => c
  { r with cells := if negligible sum then r.cells.erase s else r.cells.insert s sum }

/-- The row with another row scaled by a factor. -/
def addScaled (r other : Row α) (c : α) : Row α :=
  other.cells.foldl (fun r s v => r.insert s (v * c))
    { r with constant := r.constant + other.constant * c }

/-- The row without a symbol. -/
def erase (r : Row α) (s : Symbol) : Row α := { r with cells := r.cells.erase s }

/-- The row with every part scaled. -/
def scale (r : Row α) (c : α) : Row α := ⟨r.constant * c, r.cells.map fun _ v => v * c⟩

/-- The row with every sign turned. -/
def negate (r : Row α) : Row α := ⟨-r.constant, r.cells.map fun _ v => -v⟩

/-- The expression of a symbol, if the row is zero. -/
def solveFor (r : Row α) (s : Symbol) : Row α :=
  (r.erase s).scale (-Scalar.one / r.cells[s]?.getD Scalar.one)

/-- The expression of the symbol that enters, if the row expresses the one that leaves. -/
def exchange (r : Row α) (leaving entering : Symbol) : Row α :=
  (r.insert leaving (-Scalar.one)).solveFor entering

/-- The row with a symbol replaced by its expression. -/
def substitute (r : Row α) (s : Symbol) (expression : Row α) : Row α :=
  match r.cells[s]? with
  | some c => (r.erase s).addScaled expression c
  | none => r

end Row

/-- The expressions of the basic symbols, the sum of the misses, and how far a new row is
from being satisfied. -/
structure Tableau (α : Type) where
  rows : Std.TreeMap Symbol (Row α)
  objective : Row α
  trial : Row α
  /-- The number of constraints. -/
  count : Nat

/-- Why a constraint cannot be added. -/
inductive TableauFault where
  | contradiction
  | unbounded
deriving DecidableEq, Repr

namespace Tableau

variable {α : Type} [Scalar α]

/-- The tableau without constraints. -/
def empty : Tableau α := ⟨∅, .ofConstant Scalar.zero, .ofConstant Scalar.zero, 0⟩

/-- The value of a variable. All zeros are the same one, without a sign. -/
def value (t : Tableau α) (v : Variable) : α :=
  match t.rows[Symbol.external v]? with
  | some row => if row.constant == Scalar.zero then Scalar.zero else row.constant
  | none => Scalar.zero

/-- The tableau with a symbol made basic by its expression. -/
def substitute (t : Tableau α) (s : Symbol) (expression : Row α) : Tableau α :=
  { t with
    rows := (t.rows.map fun _ row => row.substitute s expression).insert s expression
    objective := t.objective.substitute s expression
    trial := t.trial.substitute s expression }

/-- The least symbol that makes an objective smaller. -/
def entering? (objective : Row α) : Option Symbol :=
  (objective.cells.toList.find? fun (s, c) => !s.isDummy && c < Scalar.zero).map (·.1)

/-- Whether a bound limits anything: it is a number below infinity. -/
def binding (bound : α) : Bool := bound < Scalar.zero || bound - bound == Scalar.zero

/-- How far a symbol can grow before a basic one would become negative, if that is a limit. -/
def ratio? (entering s : Symbol) (row : Row α) : Option α :=
  let c := row.factor entering
  if !s.isExternal && c < Scalar.zero then some (-row.constant / c) |>.filter binding else none

/-- The basic symbol that is the first to become zero when a symbol grows, the least one
of several. -/
def leaving? (t : Tableau α) (entering : Symbol) : Option (Symbol × Row α) :=
  (t.rows.foldl (fun (best : Option (α × Symbol × Row α)) s row =>
    match ratio? entering s row, best with
    | some r, some (least, _) => if r < least then some (r, s, row) else best
    | some r, none => some (r, s, row)
    | none, _ => best) none).map (·.2)

/-- Change the basis until an objective is least, in at most so many steps. -/
def optimize (objective : Tableau α → Row α) : Nat → Tableau α → Except TableauFault (Tableau α)
  | 0, t => .ok t
  | steps + 1, t =>
    match entering? (objective t) with
    | none => .ok t
    | some entering =>
      match t.leaving? entering with
      | none => .error .unbounded
      | some (leaving, row) =>
        optimize objective steps
          ({ t with rows := t.rows.erase leaving }.substitute entering
            (row.exchange leaving entering))

/-- A bound on the number of bases: every constraint brings at most two symbols besides
the variables, and the trial one more. -/
def steps (t : Tableau α) : Nat := Nat.pow 2 (2 * t.count + 3)

/-- The new row of a constraint whose sides differ by an expression: basic symbols are
replaced by their expressions. -/
def express (t : Tableau α) (constant : α) (terms : List (Variable × α)) : Row α :=
  terms.foldl (fun row (v, c) =>
    if Row.negligible c then row
    else match t.rows[Symbol.external v]? with
      | some expression => row.addScaled expression c
      | none => row.insert (.external v) c) (.ofConstant constant)

/-- A new row with the symbols that belong to it. -/
structure Draft (α : Type) where
  row : Row α
  /-- The symbols that may become basic by this row if no variable can. -/
  markers : List Symbol
  /-- What is added to the objective. -/
  misses : List Symbol

/-- The new row of a constraint, with a constant that is not negative. -/
def draft (t : Tableau α) (c : Constraint α Variable) : Draft α :=
  let (left, right) := match c with
    | .required left _ right | .preferred left right => (left, right)
  let row := t.express (left.constant - right.constant)
    (left.terms ++ right.terms.map fun (v, c) => (v, -c))
  let (added, markers, misses) : List (Symbol × α) × List Symbol × List Symbol := match c with
    | .required _ .lessOrEqual _ => ([(.slack t.count, Scalar.one)], [.slack t.count], [])
    | .required _ .greaterOrEqual _ => ([(.slack t.count, -Scalar.one)], [.slack t.count], [])
    | .required _ .equal _ => ([(.dummy t.count, Scalar.one)], [], [])
    | .preferred _ _ => ([(.excess t.count, -Scalar.one), (.shortfall t.count, Scalar.one)],
        [.excess t.count, .shortfall t.count], [.excess t.count, .shortfall t.count])
  let row := added.foldl (fun row (s, c) => row.insert s c) row
  ⟨if row.constant < Scalar.zero then row.negate else row, markers, misses⟩

/-- The symbol that a new row makes basic: a variable, or else one of the row's own that
stays positive. -/
def subject? (d : Draft α) : Option Symbol :=
  match d.row.cells.keys.find? Symbol.isExternal with
  | some s => some s
  | none => d.markers.find? fun s => d.row.factor s < Scalar.zero

/-- The tableau with a new row that no symbol can be solved for at once. The row gets an
artificial symbol, which has to be zero in some basis. -/
def addByTrial (t : Tableau α) (row : Row α) : Except TableauFault (Tableau α) := do
  let t ← optimize Tableau.trial t.steps
    { t with rows := t.rows.insert .artificial row, trial := row }
  if !Row.negligible t.trial.constant then throw .contradiction
  let t ← match t.rows[Symbol.artificial]? with
    | none => pure t
    | some row =>
      let t := { t with rows := t.rows.erase .artificial }
      if row.cells.isEmpty then pure t
      else match row.cells.keys.find? Symbol.isPivotable with
        | some entering => pure (t.substitute entering (row.exchange .artificial entering))
        | none => throw .contradiction
  return { t with
    rows := t.rows.map fun _ row => row.erase .artificial
    objective := t.objective.erase .artificial
    trial := .ofConstant Scalar.zero }

/-- **The tableau with one more constraint**, at the least sum of misses. -/
def add (t : Tableau α) (c : Constraint α Variable) : Except TableauFault (Tableau α) := do
  let d := t.draft c
  let t := { t with objective := d.misses.foldl (·.insert · Scalar.one) t.objective }
  let t ← match subject? d with
    | some s => pure (t.substitute s (d.row.solveFor s))
    | none =>
      if d.row.cells.keys.all Symbol.isDummy then
        if Row.negligible d.row.constant then
          pure (t.substitute (.dummy t.count) (d.row.solveFor (.dummy t.count)))
        else throw .contradiction
      else t.addByTrial d.row
  let t ← optimize Tableau.objective t.steps t
  return { t with count := t.count + 1 }

end Tableau

end Schematic
