import Mathlib
import Schematic.Route.Grid

/-!
# Exact geometry

Over the rationals the scalars of a diagram are the numbers they look like, so the tests
of rectangles, the rounding to cells and the squares of a grid can be read as order
relations between coordinates.

* `Rect.holds_iff`, `Rect.meets_iff`, `Rect.covers_iff`: what the tests of rectangles say.
* `Scalar.ceilNat_div_le`, `Scalar.lt_floorNat_div`: which cells a coordinate cuts off.
* `nextSquare_square`: the square next to the square of a cell is that of its neighbour.
-/

namespace Schematic

namespace Scalar

@[simp] theorem zero_rat : (Scalar.zero : Rat) = 0 := rfl

@[simp] theorem two_rat : (Scalar.two : Rat) = 2 := rfl

/-- A column begins at or behind a coordinate. -/
theorem ceilNat_div_le {a s : Rat} (hs : 0 < s) {n : ℕ} :
    Scalar.ceilNat (a / s) ≤ n ↔ a ≤ n * s := by
  change (a / s).ceil.toNat ≤ n ↔ _
  rw [Int.toNat_le, Rat.ceil_le_iff, Int.cast_natCast, div_le_iff₀ hs]

/-- A column begins before a coordinate. -/
theorem lt_ceilNat_div {a s : Rat} (hs : 0 < s) {n : ℕ} :
    n < Scalar.ceilNat (a / s) ↔ n * s < a := by
  rw [← not_le, ceilNat_div_le hs, not_le]

/-- A column ends at or before a coordinate. -/
theorem lt_floorNat_div {a s : Rat} (hs : 0 < s) {n : ℕ} :
    n < Scalar.floorNat (a / s) ↔ (n + 1) * s ≤ a := by
  change n < (a / s).floor.toNat ↔ _
  rw [Int.lt_toNat, ← Int.add_one_le_iff, Rat.le_floor_iff, le_div_iff₀ hs]
  push_cast
  rfl

end Scalar

namespace Rect

variable {r s : Rect Rat} {p : Point Rat}

theorem holds_iff : r.holds p = true ↔
    (r.left ≤ p.x ∧ p.x ≤ r.right) ∧ r.top ≤ p.y ∧ p.y ≤ r.bottom := by
  simp [holds, and_assoc]

theorem meets_iff : r.meets s = true ↔
    (r.left ≤ s.right ∧ s.left ≤ r.right) ∧ r.top ≤ s.bottom ∧ s.top ≤ r.bottom := by
  simp [meets, and_assoc]

theorem covers_iff : r.covers s = true ↔
    (r.left ≤ s.left ∧ s.right ≤ r.right) ∧ r.top ≤ s.top ∧ s.bottom ≤ r.bottom := by
  simp [covers, and_assoc]

theorem meets_comm : r.meets s = s.meets r := by
  rw [Bool.eq_iff_iff, meets_iff, meets_iff]
  tauto

@[simp] theorem left_inset (r : Rect Rat) (d : Rat) : (r.inset d).left = r.left + d := rfl

@[simp] theorem top_inset (r : Rect Rat) (d : Rat) : (r.inset d).top = r.top + d := rfl

@[simp] theorem right_inset (r : Rect Rat) (d : Rat) : (r.inset d).right = r.right - d := by
  simp only [right, inset, of, Scalar.two_rat]
  ring

@[simp] theorem bottom_inset (r : Rect Rat) (d : Rat) : (r.inset d).bottom = r.bottom - d := by
  simp only [bottom, inset, of, Scalar.two_rat]
  ring

end Rect

namespace Cell

variable {side : Rat} {c : Cell}

@[simp] theorem left_square : (c.square side).left = c.x * side := rfl

@[simp] theorem top_square : (c.square side).top = c.y * side := rfl

@[simp] theorem right_square : (c.square side).right = (c.x + 1) * side := by
  simp only [square, Rect.right, Rect.of]
  ring

@[simp] theorem bottom_square : (c.square side).bottom = (c.y + 1) * side := by
  simp only [square, Rect.bottom, Rect.of]
  ring

end Cell

/-- The square next to the square of a cell is the square of the next cell. -/
theorem nextSquare_square {side : Rat} {c b : Cell} {d : Direction} (h : c.neighbor? d = some b) :
    nextSquare side (c.square side) d = b.square side := by
  obtain ⟨rfl, hx, hy⟩ | ⟨rfl, hx, hy⟩ | ⟨rfl, hx, hy⟩ | ⟨rfl, hx, hy⟩ := Cell.neighbor?_cases h
  all_goals simp only [nextSquare, Cell.square, Rect.offset, Rect.of, Scalar.zero_rat]
  · rw [hx, ← hy]; congr 2 <;> push_cast <;> ring
  · rw [hx, hy]; congr 2 <;> push_cast <;> ring
  · rw [hx, hy]; congr 2 <;> push_cast <;> ring
  · rw [hy, ← hx]; congr 2 <;> push_cast <;> ring

namespace AccessGrid

variable {g : AccessGrid Rat} {c : Cell}

theorem center_x : (g.center c).x = c.x * g.cellSide + g.cellSide / 2 := rfl

theorem center_y : (g.center c).y = c.y * g.cellSide + g.cellSide / 2 := rfl

end AccessGrid

end Schematic
