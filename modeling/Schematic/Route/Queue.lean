import Mathlib.Computability.StateTransition
import Mathlib.Data.List.MinMax
import Mathlib.Data.Prod.Lex
import Schematic.Route.Path

/-!
# Searching with a queue

A shortest path can be found with a queue of cells that comes out by distance, column and row. A
cell that comes out for the first time is settled, and the cells one step further that were not
reached before go into the queue, with it as the cell they were reached from.

* `AccessGrid.Search`, `AccessGrid.round`: what such a search knows, and one round of it.
* `AccessGrid.queueSearch`: the whole search, with the way back along the cells reached from.
-/

namespace Schematic

/-- The place of a cell in the order of columns, and of rows within a column. -/
def Cell.place (c : Cell) : ℕ ×ₗ ℕ := toLex (c.x, c.y)

namespace AccessGrid

open StateTransition

variable {α : Type}

/-- A cell in the queue, with the number of steps to it. -/
@[ext] structure Entry where
  steps : ℕ
  cell : Cell
deriving DecidableEq

/-- The order in which the queue is emptied: by steps, then by column and row. -/
def Entry.rank (e : Entry) : ℕ ×ₗ ℕ ×ₗ ℕ := toLex (e.steps, e.cell.place)

/-- **What a search knows**: the steps to the cells that were reached, the cells they were reached
from, the cells that are settled, and the queue. -/
structure Search where
  steps : Cell → Option ℕ
  before : Cell → Option Cell
  settled : Finset Cell
  queue : List Entry

namespace Search

/-- Only the start is reached, and nothing is settled. -/
def init (start : Cell) : Search :=
  ⟨Function.update (fun _ => none) start (some 0), fun _ => none, ∅, [⟨0, start⟩]⟩

/-- Reach a cell by one step from the cell of an entry. -/
def reach (e : Entry) (s : Search) (next : Cell) : Search :=
  { s with
    steps := Function.update s.steps next (some (e.steps + 1))
    before := Function.update s.before next (some e.cell)
    queue := ⟨e.steps + 1, next⟩ :: s.queue }

/-- Reach a cell from an entry unless it is settled or was reached by as few steps. -/
def relax (e : Entry) (s : Search) (next : Cell) : Search :=
  if next ∈ s.settled then s
  else if (s.steps next).all (e.steps + 1 < ·) then s.reach e next
  else s

/-- Settle the cell of an entry, which is taken from the queue. -/
def settle (e : Entry) (s : Search) : Search :=
  { s with settled := insert e.cell s.settled, queue := s.queue.erase e }

end Search

/-- The cells one step from a cell, in the order in which they are reached. -/
def onward (g : AccessGrid α) (c : Cell) : List Cell :=
  [Direction.left, .right, .up, .down].filterMap (g.step? c)

/-- **One round of a search.** It is over when the queue is empty or the goal comes out. A cell that
is settled already is dropped; another one is settled and its neighbours are reached. -/
def round (g : AccessGrid α) (goal : Cell) (s : Search) : Option Search :=
  match s.queue.argmin Entry.rank with
  | none => none
  | some e =>
    if e.cell = goal then none
    else if e.cell ∈ s.settled then some { s with queue := s.queue.erase e }
    else some ((g.onward e.cell).foldl (Search.relax e) (s.settle e))

/-- One step back to the cell that a cell was reached from, with the cells of the way so far. -/
def back (before : Cell → Option Cell) (way : Cell × List Cell) : Option (Cell × List Cell) :=
  (before way.1).map fun p => (p, p :: way.2)

/-- **The shortest path**, found with a queue. -/
def queueSearch (g : AccessGrid α) (start : Cell) : Cell →. Option (List Cell) := fun goal =>
  if g.contains start && g.contains goal then
    if start = goal then Part.some (some [start])
    else (eval (g.round goal) (.init start)).bind fun s =>
      match s.before goal with
      | none => Part.some none
      | some _ => (eval (back s.before) (goal, [goal])).map fun way => some way.2
  else Part.some none

end AccessGrid

end Schematic
