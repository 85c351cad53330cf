import Schematic.Route.Grid

/-!
# Shortest paths

A path through a grid steps from cell to cell as the access of the cells allows. A
shortest one is found from the numbers of steps that the cells are away from its
start: the way back from its end goes down these numbers, and of several cells that
are equally near takes the least column, then the least row.

* `AccessGrid.successors`: the cells one step from a cell.
* `AccessGrid.flood`: the numbers of steps, layer by layer.
* `AccessGrid.shortestPath`: the path.
-/

namespace Schematic

/-- How many steps cells are away, for those that were reached. -/
structure Reach where
  width : Nat
  steps : Array (Option Nat)
deriving DecidableEq, Repr

namespace Reach

/-- Nothing reached yet. -/
def empty (width height : Nat) : Reach := ⟨width, Array.replicate (width * height) none⟩

/-- The place of a cell. -/
def index (r : Reach) (c : Cell) : Nat := c.y * r.width + c.x

/-- How many steps a cell is away. -/
def at? (r : Reach) (c : Cell) : Option Nat := r.steps.getD (r.index c) none

/-- The same with a cell so many steps away. -/
def set (r : Reach) (c : Cell) (n : Nat) : Reach :=
  { r with steps := r.steps.setIfInBounds (r.index c) (some n) }

end Reach

namespace AccessGrid

variable {α : Type}

/-- The cell one step from a cell in a direction, if it may be left there. -/
def step? (g : AccessGrid α) (c : Cell) (d : Direction) : Option Cell :=
  if (g.access c).allows d then (c.neighbor? d).filter g.contains else none

/-- The cells one step from a cell. -/
def successors (g : AccessGrid α) (c : Cell) : List Cell := Direction.all.filterMap (g.step? c)

/-- The cells around a cell, column by column. -/
def around (c : Cell) : List Cell :=
  [Direction.left, .up, .down, .right].filterMap c.neighbor?

/-- The cells that are one step before a cell, column by column. -/
def predecessors (g : AccessGrid α) (c : Cell) : List Cell :=
  (around c).filter fun p => (g.successors p).contains c

/-- Reach a cell by so many steps if it was not reached before. -/
def visit (n : Nat) (state : Reach × List Cell) (c : Cell) : Reach × List Cell :=
  match state.1.at? c with
  | some _ => state
  | none => (state.1.set c n, c :: state.2)

/-- Reach all cells one step from a layer, and the list of those that are new. -/
def layer (g : AccessGrid α) (n : Nat) (reach : Reach) (cells : List Cell) : Reach × List Cell :=
  (cells.flatMap g.successors).foldl (visit n) (reach, [])

/-- Reach layer after layer until a cell is reached, no new cell is found or so many
layers are done. The layer at hand is `n` steps away. -/
def flood (g : AccessGrid α) (goal : Cell) : Nat → Nat → Reach → List Cell → Reach
  | 0, _, reach, _ => reach
  | layers + 1, n, reach, cells =>
    if cells.isEmpty || (reach.at? goal).isSome then reach
    else
      let (reach, next) := g.layer (n + 1) reach cells
      flood g goal layers (n + 1) reach next

/-- The steps that cells are away from a start, at least up to a goal. There are no more
layers than cells. -/
def reachFrom (g : AccessGrid α) (start goal : Cell) : Reach :=
  g.flood goal g.cells.size 0 ((Reach.empty g.width g.height).set start 0) [start]

/-- The way to a cell that is `n` steps away, before the cells that come after it. -/
def wayBack (g : AccessGrid α) (reach : Reach) : Nat → Cell → List Cell → List Cell
  | 0, c, after => c :: after
  | n + 1, c, after =>
    match (g.predecessors c).find? fun p => reach.at? p == some n with
    | some p => wayBack g reach n p (c :: after)
    | none => c :: after

/-- **The shortest path** between two cells, both included. -/
def shortestPath (g : AccessGrid α) (start goal : Cell) : Option (List Cell) :=
  if g.contains start && g.contains goal then
    let reach := g.reachFrom start goal
    (reach.at? goal).map fun n => g.wayBack reach n goal []
  else none

end AccessGrid

end Schematic
