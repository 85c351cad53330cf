/-!
# Cells

The canvas is tiled with square cells, counted from its top left corner. Routes step
from a cell to one of the four next to it.

* `Cell.neighbor?`: the cell next to a cell.
* `Direction.between`: the direction of a step.
* `Cell.Beside`: cells that are next to each other.
-/

namespace Schematic

/-- A cell by its column and its row. -/
@[ext] structure Cell where
  x : Nat
  y : Nat
deriving DecidableEq, Repr

/-- The directions of a step. -/
inductive Direction where
  | up
  | right
  | down
  | left
deriving DecidableEq, Repr

/-- All directions, clockwise. -/
def Direction.all : List Direction := [up, right, down, left]

/-- The direction of a step between cells of one column or one row. -/
def Direction.between (a b : Cell) : Direction :=
  if a.x = b.x then if a.y < b.y then down else up
  else if a.x < b.x then right else left

/-- The direction of the step back. -/
def Direction.opposite : Direction → Direction
  | up => down
  | right => left
  | down => up
  | left => right

namespace Cell

/-- The next cell in a direction; there is none above the first row or left of the
first column. -/
def neighbor? (c : Cell) : Direction → Option Cell
  | .up => if c.y = 0 then none else some ⟨c.x, c.y - 1⟩
  | .right => some ⟨c.x + 1, c.y⟩
  | .down => some ⟨c.x, c.y + 1⟩
  | .left => if c.x = 0 then none else some ⟨c.x - 1, c.y⟩

theorem between_of_neighbor? {a b : Cell} {d : Direction} (h : a.neighbor? d = some b) :
    Direction.between a b = d := by
  cases d <;> simp only [neighbor?, Option.ite_none_left_eq_some, Option.some.injEq] at h
  case up => obtain ⟨_, rfl⟩ := h; simp [Direction.between]
  case right => subst h; simp [Direction.between]
  case down => subst h; simp [Direction.between]
  case left =>
    obtain ⟨h, rfl⟩ := h
    have h₁ : a.x ≠ a.x - 1 := by omega
    simp [Direction.between, h₁]

/-- Where the neighbours of a cell are. -/
theorem neighbor?_cases {a b : Cell} {d : Direction} (h : a.neighbor? d = some b) :
    (d = .up ∧ b.x = a.x ∧ b.y + 1 = a.y) ∨ (d = .right ∧ b.x = a.x + 1 ∧ b.y = a.y) ∨
      (d = .down ∧ b.x = a.x ∧ b.y = a.y + 1) ∨ (d = .left ∧ b.x + 1 = a.x ∧ b.y = a.y) := by
  cases d <;> simp only [neighbor?, Option.ite_none_left_eq_some, Option.some.injEq] at h
  case up => obtain ⟨hy, rfl⟩ := h; simp; omega
  case right => subst h; simp
  case down => subst h; simp
  case left => obtain ⟨hx, rfl⟩ := h; simp; omega

/-- A step can be taken back. -/
theorem neighbor?_opposite {a b : Cell} {d : Direction} (h : a.neighbor? d = some b) :
    b.neighbor? d.opposite = some a := by
  rcases neighbor?_cases h with ⟨rfl, hx, hy⟩ | ⟨rfl, hx, hy⟩ | ⟨rfl, hx, hy⟩ | ⟨rfl, hx, hy⟩
  · exact congrArg some (Cell.ext hx hy)
  · rw [Direction.opposite, neighbor?, if_neg (by omega)]
    exact congrArg some (Cell.ext (by simp; omega) hy)
  · rw [Direction.opposite, neighbor?, if_neg (by omega)]
    exact congrArg some (Cell.ext hx (by simp; omega))
  · exact congrArg some (Cell.ext hx hy)

/-- **Cells next to each other.** -/
def Beside (a b : Cell) : Prop := ∃ d, a.neighbor? d = some b

theorem Beside.symm {a b : Cell} : a.Beside b → b.Beside a
  | ⟨d, h⟩ => ⟨d.opposite, neighbor?_opposite h⟩

/-- They share a column or a row. -/
theorem beside_iff {a b : Cell} : a.Beside b ↔
    (a.x = b.x ∧ (a.y + 1 = b.y ∨ b.y + 1 = a.y)) ∨
      (a.y = b.y ∧ (a.x + 1 = b.x ∨ b.x + 1 = a.x)) := by
  constructor
  · rintro ⟨d, h⟩
    rcases neighbor?_cases h with h | h | h | h <;> omega
  · rintro (⟨hx, hy | hy⟩ | ⟨hy, hx | hx⟩)
    · exact ⟨.down, congrArg some (Cell.ext hx hy)⟩
    · refine ⟨.up, ?_⟩
      rw [neighbor?, if_neg (by omega)]
      exact congrArg some (Cell.ext hx (by simp; omega))
    · exact ⟨.right, congrArg some (Cell.ext hx hy)⟩
    · refine ⟨.left, ?_⟩
      rw [neighbor?, if_neg (by omega)]
      exact congrArg some (Cell.ext (by simp; omega) hy)

end Cell

end Schematic
