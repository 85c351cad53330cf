import Schematic.Geometry
import Schematic.Route.Grid

/-!
# Polylines

A path from cell to cell becomes a line of points: it starts where the path leaves the
source, ends where it enters the target, and keeps a point only where it turns.

* `trim`: the line between the edges of two boxes.
* `simplify`: the line without points between its turns.
* `dedup`: the line without points that come twice in a row.
-/

namespace Schematic

variable {α : Type} [Scalar α]

/-- The point where a step over an edge of a frame crosses it. A step out of the frame
crosses the edge ahead, a step into it the edge behind. -/
def edgeCrossing (frame : Rect α) (cell : Point α) (direction : Direction) (leaving : Bool) :
    Point α :=
  match direction, leaving with
  | .down, true | .up, false => ⟨cell.x, frame.bottom⟩
  | .up, true | .down, false => ⟨cell.x, frame.top⟩
  | .right, true | .left, false => ⟨frame.right, cell.y⟩
  | .left, true | .right, false => ⟨frame.left, cell.y⟩

/-- A line from box to box: where it leaves, the points between, and where it arrives. -/
structure Trimmed (α : Type) where
  start : Point α
  interior : List (Point α)
  stop : Point α
deriving DecidableEq, Repr

namespace Trimmed

/-- All points of the line. -/
def points (t : Trimmed α) : List (Point α) := t.start :: t.interior ++ [t.stop]

/-- Where a path leaves the source by its step number `leave`, and the number of cells
that come before the interior. A path that begins outside begins the line. -/
def leaving (g : AccessGrid α) (source : Rect α) (path : List Cell) (leave : Nat) :
    Option (Point α × Nat) :=
  if leave = 0 then path.head?.map fun c => (g.center c, 1)
  else do
    let inner ← path[leave - 1]?
    let outer ← path[leave]?
    return (edgeCrossing source (g.center inner) (.between inner outer) true, leave)

/-- Where a path enters the target after its cell number `enter`, and the number of cells
up to the end of the interior. A path that ends outside ends the line. -/
def entering (g : AccessGrid α) (target : Rect α) (path : List Cell) (enter : Nat) :
    Option (Point α × Nat) := do
  let outer ← path[enter]?
  match path[enter + 1]? with
  | some inner =>
    return (edgeCrossing target (g.center inner) (.between outer inner) false, enter + 1)
  | none => return (g.center outer, enter)

end Trimmed

/-- The number of the last element of a list with a property. -/
def lastIndex? {β : Type} (p : β → Bool) (xs : List β) : Option Nat :=
  (xs.reverse.findIdx? p).map fun i => xs.length - 1 - i

/-- **Trim a path** to the part between its first cell outside the source and its last
cell outside the target. -/
def trim (g : AccessGrid α) (path : List Cell) (source target : Rect α) :
    Option (Trimmed α) := do
  let leave ← path.findIdx? fun c => !source.holds (g.center c)
  let enter ← lastIndex? (fun c => !target.holds (g.center c)) path
  if enter < leave then none
  let (start, first) ← Trimmed.leaving g source path leave
  let (stop, last) ← Trimmed.entering g target path enter
  return ⟨start, ((path.take last).drop first).map g.center, stop⟩

/-- Whether three points lie on one vertical or on one horizontal line. -/
def aligned (p q r : Point α) : Bool := r.x == q.x && r.x == p.x || r.y == q.y && r.y == p.y

/-- A line with another point, both from the last point on. On the line of the last two
points it takes the place of the last one. -/
def extend : List (Point α) → Point α → List (Point α)
  | q :: p :: rest, r => if aligned p q r then r :: p :: rest else r :: q :: p :: rest
  | line, r => r :: line

/-- **Merge points on one line**: only turns and ends are kept. -/
def simplify (points : List (Point α)) : List (Point α) := (points.foldl extend []).reverse

/-- The points after a point, without those that repeat the one before them. -/
def dedupAfter (p : Point α) : List (Point α) → List (Point α)
  | [] => []
  | q :: rest => if p == q then dedupAfter p rest else q :: dedupAfter q rest

/-- A line without points that come twice in a row. -/
def dedup : List (Point α) → List (Point α)
  | [] => []
  | p :: rest => p :: dedupAfter p rest

end Schematic
