import Schematic.Proofs.Claiming
import Schematic.Proofs.Foremost

/-!
# Cells within a rectangle

The cells of a rectangle are found by rounding: its near edges up to the next lines of the grid,
its far edges down, and neither beyond the grid. Which cells these are is said here by points
alone: those of which no point lies outside the rectangle. It may lie anywhere, off the grid or
across its edges, and be turned inside out.

* `Rect.covers_iff_holds`: covering a rectangle is holding all of its points.
* `block_pairwise`: a block is listed column by column.
* `AccessGrid.cellsIn_exact`: the cells of a rectangle.
-/

namespace Schematic

section Covering

variable {r s : Rect Rat}

/-- **To cover a rectangle** is to hold all of its points, provided that it has any. -/
theorem Rect.covers_iff_holds (hx : s.left ≤ s.right) (hy : s.top ≤ s.bottom) :
    r.covers s = true ↔ ∀ p, s.holds p = true → r.holds p = true := by
  simp only [covers_iff, holds_iff]
  constructor
  · intro hcover p hp
    obtain ⟨⟨hl, hr⟩, ht, hb⟩ := hcover
    obtain ⟨⟨hpl, hpr⟩, hpt, hpb⟩ := hp
    exact ⟨⟨hl.trans hpl, hpr.trans hr⟩, ht.trans hpt, hpb.trans hb⟩
  · intro hall
    -- two opposite corners settle all four edges
    have hnear := hall ⟨s.left, s.top⟩ ⟨⟨le_rfl, hx⟩, le_rfl, hy⟩
    have hfar := hall ⟨s.right, s.bottom⟩ ⟨⟨hx, le_rfl⟩, hy, le_rfl⟩
    exact ⟨⟨hnear.1.1, hfar.1.2⟩, hnear.2.1, hfar.2.2⟩

/-- The square of a cell has points. -/
theorem Cell.square_edges {side : Rat} (hside : 0 < side) (c : Cell) :
    (c.square side).left ≤ (c.square side).right ∧ (c.square side).top ≤ (c.square side).bottom := by
  rw [left_square, right_square, top_square, bottom_square]
  constructor <;> linarith

end Covering

/-- **A block is listed column by column**, and each column from above. -/
theorem block_pairwise (left right top bottom : ℕ) :
    (AccessGrid.block left right top bottom).Pairwise fun a b => a.place < b.place := by
  unfold AccessGrid.block
  rw [List.pairwise_flatMap]
  constructor
  · intro x _
    rw [List.pairwise_map]
    have hrows := List.pairwise_lt_range' (s := top) (n := bottom - top)
    refine hrows.imp fun hlt => ?_
    exact Cell.place_lt_iff.2 (Or.inr ⟨rfl, hlt⟩)
  · have hcolumns := List.pairwise_lt_range' (s := left) (n := right - left)
    refine hcolumns.imp fun hlt => ?_
    intro a ha b hb
    obtain ⟨y, -, rfl⟩ := List.mem_map.1 ha
    obtain ⟨y', -, rfl⟩ := List.mem_map.1 hb
    exact Cell.place_lt_iff.2 (Or.inl hlt)

namespace AccessGrid

theorem cellsIn_pairwise (g : AccessGrid Rat) (r : Rect Rat) :
    (g.cellsIn r).Pairwise fun a b => a.place < b.place := by
  unfold cellsIn
  split
  · exact block_pairwise _ _ _ _
  · exact .nil

/-- **The cells of a rectangle** are the cells of the grid of which no point lies outside the
rectangle. They come column by column, none of them twice, and the rectangle holds their centres. -/
theorem cellsIn_exact {g : AccessGrid Rat} (hside : 0 < g.cellSide) (r : Rect Rat) :
    (∀ c, c ∈ g.cellsIn r ↔ g.contains c = true ∧
      ∀ p, (c.square g.cellSide).holds p = true → r.holds p = true) ∧
    (g.cellsIn r).Pairwise (fun a b => a.place < b.place) ∧ (g.cellsIn r).Nodup ∧
    ∀ c ∈ g.cellsIn r, r.holds (g.center c) = true := by
  have hordered := g.cellsIn_pairwise r
  refine ⟨fun c => ?_, hordered, ?_, fun c hc => ?_⟩
  · obtain ⟨hx, hy⟩ := c.square_edges hside
    rw [mem_cellsIn hside, Rect.covers_iff_holds hx hy]
  · refine hordered.imp fun hlt heq => ?_
    rw [heq] at hlt
    exact lt_irrefl _ hlt
  · have hcover := ((mem_cellsIn hside).1 hc).2
    exact holds_center hside hcover

/-- A rectangle that begins to the left of the canvas, on a line of the grid, and ends beyond its
right edge and half way down the last row. -/
theorem overhanging_exact :
    let g := ofObstacles (.of 0 0 40 40) [] 0 10
    let r : Rect Rat := .of (-5) 10 100 25
    g.cellsIn r = [⟨0, 1⟩, ⟨0, 2⟩, ⟨1, 1⟩, ⟨1, 2⟩, ⟨2, 1⟩, ⟨2, 2⟩, ⟨3, 1⟩, ⟨3, 2⟩] ∧
      0 < g.cellSide ∧
      (∀ c, c ∈ g.cellsIn r ↔ g.contains c = true ∧
        ∀ p, (c.square g.cellSide).holds p = true → r.holds p = true) ∧
      (g.cellsIn r).Pairwise (fun a b => a.place < b.place) ∧ (g.cellsIn r).Nodup ∧
      ∀ c ∈ g.cellsIn r, r.holds (g.center c) = true := by
  intro g r
  have hside : 0 < g.cellSide := by decide
  exact ⟨by decide +kernel, hside, cellsIn_exact hside r⟩

end AccessGrid

end Schematic
