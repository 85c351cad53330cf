import Schematic.Route.Grid

/-!
# Connection points

A connector is bound to a cell of its source and a cell of its target. Cells that face
the other box are candidates. A cell is claimed by one connector at a time, as long as
there are cells left.

* `AccessGrid.candidates`: the cells of two boxes that face each other.
* `Register.pick`: the cell that a connector claims.
-/

namespace Schematic

/-- The cells that are extreme along an axis. -/
def extremeCells (axis : Cell → Nat) (greatest : Bool) (cells : List Cell) : List Cell :=
  let values := cells.map axis
  match if greatest then values.max? else values.min? with
  | some extreme => cells.filter fun c => axis c == extreme
  | none => cells

/-- Narrow the cells of two boxes along an axis to the sides that face each other: the
greatest ones of the first box if it comes before the second. -/
def facing (axis : Cell → Nat) (firstIsBefore : Bool) (cells : List Cell × List Cell) :
    List Cell × List Cell :=
  (extremeCells axis firstIsBefore cells.1, extremeCells axis (!firstIsBefore) cells.2)

/-- **The candidates for the ends of a connector.** Boxes that meet, or of which one is
too small for a cell, keep all their cells. -/
def AccessGrid.candidates {α : Type} [Scalar α] (g : AccessGrid α) (source target : Rect α) :
    List Cell × List Cell :=
  let cells := (g.cellsIn source, g.cellsIn target)
  if source.meets target || cells.1.isEmpty || cells.2.isEmpty then cells
  else
    let cells := if source.right < target.left then facing Cell.x true cells else cells
    let cells := if target.right < source.left then facing Cell.x false cells else cells
    let cells := if source.bottom < target.top then facing Cell.y true cells else cells
    if target.bottom < source.top then facing Cell.y false cells else cells

/-- The cells that connectors have claimed, the last one first. -/
structure Register where
  claimed : List Cell
deriving DecidableEq, Repr

namespace Register

/-- Nothing claimed yet. -/
def empty : Register := ⟨[]⟩

/-- Whether a cell is claimed. -/
def isUsed (r : Register) (c : Cell) : Bool := r.claimed.contains c

/-- **The cell that a connector claims**: the first one that is free. If none is, the
first one is shared. -/
def pick (candidates : List Cell) : StateM Register (Option Cell) := fun r =>
  match candidates.find? fun c => !r.isUsed c with
  | some c => (some c, ⟨c :: r.claimed⟩)
  | none => (candidates.head?, r)

end Register

end Schematic
