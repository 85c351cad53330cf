import Schematic.Proofs.Attempts
import Schematic.Proofs.Crossing

/-!
# Claiming cells

A connector claims one of the cells that lie wholly within its source, and one of those
that lie wholly within its target.

* `mem_cellsIn`: the cells of a rectangle.
* `candidates_subset`, `candidates_ne_nil`: narrowing them to the sides that face each
  other keeps some.
* `claimEnds_mem`, `exists_claimEnds`: the cells that are claimed.
-/

namespace Schematic

section Cells

variable {g : AccessGrid Rat} {r source target : Rect Rat} {c : Cell}

theorem mem_block {left right top bottom : ℕ} : c ∈ AccessGrid.block left right top bottom ↔
    (left ≤ c.x ∧ c.x < right) ∧ top ≤ c.y ∧ c.y < bottom := by
  simp only [AccessGrid.block, List.mem_flatMap, List.mem_map, List.mem_range']
  constructor
  · rintro ⟨x, ⟨i, hi, rfl⟩, y, ⟨j, hj, rfl⟩, rfl⟩
    simp only
    omega
  · rintro ⟨⟨hl, hr⟩, ht, hb⟩
    exact ⟨c.x, ⟨c.x - left, by omega, by omega⟩, c.y, ⟨c.y - top, by omega, by omega⟩, rfl⟩

/-- **The cells of a rectangle** are those of the grid whose squares it covers. -/
theorem mem_cellsIn (hside : 0 < g.cellSide) : c ∈ g.cellsIn r ↔
    g.contains c = true ∧ r.covers (c.square g.cellSide) = true := by
  have hpos : Scalar.zero < g.cellSide := hside
  rw [AccessGrid.cellsIn, if_pos hpos, mem_block, AccessGrid.contains_iff, Rect.covers_iff]
  simp only [Scalar.ceilNat_div_le hside, lt_min_iff, Scalar.lt_floorNat_div hside,
    Cell.left_square, Cell.right_square, Cell.top_square, Cell.bottom_square]
  tauto

/-- A rectangle that covers a cell holds its centre. -/
theorem holds_center (hside : 0 < g.cellSide) (h : r.covers (c.square g.cellSide) = true) :
    r.holds (g.center c) = true := by
  rw [Rect.covers_iff] at h
  simp only [Cell.left_square, Cell.right_square, Cell.top_square, Cell.bottom_square] at h
  rw [Rect.holds_iff, AccessGrid.center_x, AccessGrid.center_y]
  exact ⟨⟨by linarith [h.1.1], by linarith [h.1.2]⟩, by linarith [h.2.1], by linarith [h.2.2]⟩

/-! ### Cells that face another box -/

theorem extremeCells_subset (axis : Cell → ℕ) (greatest : Bool) (cells : List Cell) :
    extremeCells axis greatest cells ⊆ cells := by
  intro c hc
  simp only [extremeCells] at hc
  split at hc
  · exact (List.mem_filter.1 hc).1
  · exact hc

theorem extremeCells_ne_nil (axis : Cell → ℕ) (greatest : Bool) {cells : List Cell}
    (h : cells ≠ []) : extremeCells axis greatest cells ≠ [] := by
  simp only [extremeCells]
  split
  · rename_i m hm
    have hmem : m ∈ cells.map axis := by
      split at hm
      · exact List.max?_mem hm
      · exact List.min?_mem hm
    obtain ⟨c, hc, rfl⟩ := List.mem_map.1 hmem
    exact List.ne_nil_of_mem (List.mem_filter.2 ⟨hc, by simp⟩)
  · exact h

theorem facing_subset (axis : Cell → ℕ) (first : Bool) (cells : List Cell × List Cell) :
    (facing axis first cells).1 ⊆ cells.1 ∧ (facing axis first cells).2 ⊆ cells.2 :=
  ⟨extremeCells_subset _ _ _, extremeCells_subset _ _ _⟩

theorem facing_ne_nil (axis : Cell → ℕ) (first : Bool) {cells : List Cell × List Cell}
    (h : cells.1 ≠ [] ∧ cells.2 ≠ []) :
    (facing axis first cells).1 ≠ [] ∧ (facing axis first cells).2 ≠ [] :=
  ⟨extremeCells_ne_nil _ _ h.1, extremeCells_ne_nil _ _ h.2⟩

/-- What every narrowing of two lists of cells keeps, the candidates have. -/
theorem candidates_induction {P : List Cell × List Cell → Prop}
    (hstart : P (g.cellsIn source, g.cellsIn target))
    (hfacing : ∀ axis first cells, P cells → P (facing axis first cells)) :
    P (g.candidates source target) := by
  unfold AccessGrid.candidates
  simp only
  split
  · exact hstart
  · have hstep : ∀ (b : Prop) [Decidable b] (axis : Cell → ℕ) (first : Bool) cells, P cells →
        P (if b then facing axis first cells else cells) := by
      intro b _ axis first cells h
      split
      · exact hfacing axis first cells h
      · exact h
    exact hstep _ _ _ _ (hstep _ _ _ _ (hstep _ _ _ _ (hstep _ _ _ _ hstart)))

theorem candidates_subset : (g.candidates source target).1 ⊆ g.cellsIn source ∧
    (g.candidates source target).2 ⊆ g.cellsIn target := by
  refine candidates_induction (P := fun cells => cells.1 ⊆ g.cellsIn source ∧
    cells.2 ⊆ g.cellsIn target) ⟨fun _ h => h, fun _ h => h⟩ fun axis first cells h => ?_
  have hf := facing_subset axis first cells
  exact ⟨fun _ hc => h.1 (hf.1 hc), fun _ hc => h.2 (hf.2 hc)⟩

theorem candidates_ne_nil (hs : g.cellsIn source ≠ []) (ht : g.cellsIn target ≠ []) :
    (g.candidates source target).1 ≠ [] ∧ (g.candidates source target).2 ≠ [] :=
  candidates_induction (P := fun cells => cells.1 ≠ [] ∧ cells.2 ≠ []) ⟨hs, ht⟩
    fun axis first _ h => facing_ne_nil axis first h

end Cells

/-! ### The cells that are claimed -/

theorem Register.pick_mem {cells : List Cell} {r : Register} {c : Cell}
    (h : (Register.pick cells r).1 = some c) : c ∈ cells := by
  unfold Register.pick at h
  split at h
  · rename_i d hd
    obtain rfl : d = c := by simpa using h
    exact List.mem_of_find?_eq_some hd
  · exact List.mem_of_head? h

theorem Register.exists_pick {cells : List Cell} (h : cells ≠ []) (r : Register) :
    ∃ c, (Register.pick cells r).1 = some c := by
  unfold Register.pick
  split
  · exact ⟨_, rfl⟩
  · exact ⟨cells.head h, List.head?_eq_some_head h⟩

namespace SolvedGraph

variable {cells : List Cell × List Cell} {r : Register} {ends : Cell × Cell}

/-- A claim is a pick among the cells of either box, one after the other. -/
theorem claimEnds_fst (cells : List Cell × List Cell) (r : Register) :
    (claimEnds cells r).1 = (Register.pick cells.1 r).1.bind fun start =>
      (Register.pick cells.2 (Register.pick cells.1 r).2).1.map fun stop => (start, stop) := by
  cases h : (Register.pick cells.1 r).1 with
  | none => rw [claimEnds_of_none h, Option.bind_none]
  | some start => rw [claimEnds_of_some h, Option.bind_some]

theorem claimEnds_mem (h : (claimEnds cells r).1 = some ends) :
    ends.1 ∈ cells.1 ∧ ends.2 ∈ cells.2 := by
  rw [claimEnds_fst, Option.bind_eq_some_iff] at h
  obtain ⟨start, hstart, h⟩ := h
  obtain ⟨stop, hstop, rfl⟩ := Option.map_eq_some_iff.1 h
  exact ⟨Register.pick_mem hstart, Register.pick_mem hstop⟩

theorem exists_claimEnds (h : cells.1 ≠ [] ∧ cells.2 ≠ []) (r : Register) :
    ∃ ends, (claimEnds cells r).1 = some ends := by
  obtain ⟨start, hstart⟩ := Register.exists_pick h.1 r
  obtain ⟨stop, hstop⟩ := Register.exists_pick h.2 (Register.pick cells.1 r).2
  exact ⟨(start, stop), by rw [claimEnds_fst, hstart, Option.bind_some, hstop, Option.map_some]⟩

end SolvedGraph

end Schematic
