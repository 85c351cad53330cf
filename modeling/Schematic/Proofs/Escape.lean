import Schematic.Proofs.Stepping

/-!
# Ways out of obstacles

A cell within a grown obstacle may always be left towards the nearest edge of the box. One
step in that direction brings that edge nearer by a cell, so it stays the nearest.

* `Exit.head_rank_le`: the first way out is as short as any.
* `Obstacle.depth`: how far a point is from an edge.
* `Obstacle.exists_nearest`: a cell may be left towards the nearest edge.
* `Obstacle.depth_neighbor`, `Obstacle.depth_le_neighbor`: a step towards an edge.
* `Obstacle.covers_square_iff`, `Obstacle.meets_square_iff`: squares within and at a frame.
-/

namespace Schematic

namespace Exit

variable {a e : Exit Rat} {exits : List (Exit Rat)}

theorem mem_insert : e ∈ insert a exits ↔ e = a ∨ e ∈ exits := by
  induction exits with
  | nil => simp [insert]
  | cons b rest ih =>
    rw [insert]
    split
    · rw [List.mem_cons, ih, List.mem_cons]
      tauto
    · rw [List.mem_cons]

theorem mem_rank : e ∈ rank exits ↔ e ∈ exits := by
  induction exits with
  | nil => rfl
  | cons a rest ih =>
    change e ∈ insert a (rank rest) ↔ _
    rw [mem_insert, ih, List.mem_cons]

/-- The first of the ways out is as short as any. -/
theorem head_insert_le (h : ∀ b ∈ exits.head?, ∀ e ∈ exits, b.distance ≤ e.distance) :
    ∀ b ∈ (insert a exits).head?, ∀ e ∈ insert a exits, b.distance ≤ e.distance := by
  intro b hb e he
  rw [mem_insert] at he
  cases exits with
  | nil =>
    obtain rfl : a = b := by simpa [insert] using hb
    obtain rfl : e = a := by simpa using he
    exact le_rfl
  | cons x rest =>
    rw [insert] at hb
    have hx : ∀ e ∈ x :: rest, x.distance ≤ e.distance := h x rfl
    split at hb
    · rename_i hbetter
      obtain rfl : x = b := by simpa using hb
      -- the head keeps its place, since it is better
      have hxa : x.distance ≤ a.distance := by
        simp only [better, Bool.or_eq_true, Bool.and_eq_true, Bool.not_eq_true',
          decide_eq_true_eq, decide_eq_false_iff_not] at hbetter
        rcases hbetter with hlt | ⟨hle, -⟩
        · exact hlt.le
        · exact not_lt.1 hle
      rcases he with rfl | he
      · exact hxa
      · exact hx e he
    · rename_i hbetter
      obtain rfl : a = b := by simpa using hb
      -- the new one comes first, since the head is no better
      have hax : a.distance ≤ x.distance := by
        by_contra hlt
        simp [better, not_le.1 hlt] at hbetter
      rcases he with rfl | he
      · exact le_rfl
      · exact hax.trans (hx e he)

theorem head_rank_le : ∀ b ∈ (rank exits).head?, ∀ e ∈ exits, b.distance ≤ e.distance := by
  -- ranking keeps the ways out, so the induction may speak of the ranked ones
  suffices h : ∀ b ∈ (rank exits).head?, ∀ e ∈ rank exits, b.distance ≤ e.distance from
    fun b hb e he => h b hb e (mem_rank.2 he)
  induction exits with
  | nil => simp [rank]
  | cons a rest ih => exact head_insert_le ih

end Exit

namespace Obstacle

variable {frame : Rect Rat} {p : Point Rat} {d : Direction} {side : Rat} {a b : Cell}

/-- How far a point is from the edge of a frame in a direction. -/
def depth (frame : Rect Rat) (p : Point Rat) : Direction → Rat
  | .up => p.y - frame.top
  | .right => frame.right - p.x
  | .down => frame.bottom - p.y
  | .left => p.x - frame.left

theorem distance_of_mem_exits {e : Exit Rat} (h : e ∈ exits frame p) :
    e.distance = depth frame p e.direction := by
  simp only [exits, List.mem_cons, List.not_mem_nil, or_false] at h
  rcases h with rfl | rfl | rfl | rfl <;> rfl

theorem exists_mem_exits (frame : Rect Rat) (p : Point Rat) (d : Direction) :
    ∃ e ∈ exits frame p, e.direction = d := by
  cases d <;> simp [exits]

/-- **The nearest edge** is one of those towards which a cell may be left. -/
theorem exists_nearest (frame : Rect Rat) (p : Point Rat) :
    ∃ d ∈ escapes frame p, ∀ d', depth frame p d ≤ depth frame p d' := by
  cases h : Exit.rank (exits frame p) with
  | nil =>
    obtain ⟨e, he, -⟩ := exists_mem_exits frame p .up
    rw [← Exit.mem_rank, h] at he
    simp at he
  | cons e rest =>
    have he : e ∈ exits frame p := Exit.mem_rank.1 (by rw [h]; simp)
    refine ⟨e.direction, by simp [escapes, h], fun d' => ?_⟩
    obtain ⟨e', he', rfl⟩ := exists_mem_exits frame p d'
    rw [← distance_of_mem_exits he, ← distance_of_mem_exits he']
    exact Exit.head_rank_le e (by rw [h]; rfl) e' he'

theorem center_square (a : Cell) :
    (a.square side).center = ⟨a.x * side + side / 2, a.y * side + side / 2⟩ := rfl

/-- A step towards an edge brings it nearer by a cell. -/
theorem depth_neighbor (h : a.neighbor? d = some b) :
    depth frame (b.square side).center d = depth frame (a.square side).center d - side := by
  simp only [center_square]
  rcases Cell.neighbor?_cases h with ⟨rfl, hx, hy⟩ | ⟨rfl, hx, hy⟩ | ⟨rfl, hx, hy⟩ | ⟨rfl, hx, hy⟩
  · have hy' : (b.y : Rat) = a.y - 1 := by rw [← hy]; push_cast; ring
    simp only [depth, hy']
    ring
  · simp only [depth, hx]
    push_cast
    ring
  · simp only [depth, hy]
    push_cast
    ring
  · have hx' : (b.x : Rat) = a.x - 1 := by rw [← hx]; push_cast; ring
    simp only [depth, hx']
    ring

/-- No other edge gets nearer. -/
theorem depth_le_neighbor {d' : Direction} (hside : 0 < side) (h : a.neighbor? d = some b)
    (hne : d' ≠ d) :
    depth frame (a.square side).center d' ≤ depth frame (b.square side).center d' := by
  simp only [center_square]
  rcases Cell.neighbor?_cases h with ⟨rfl, hx, hy⟩ | ⟨rfl, hx, hy⟩ | ⟨rfl, hx, hy⟩ | ⟨rfl, hx, hy⟩
  · have hy' : (b.y : Rat) = a.y - 1 := by rw [← hy]; push_cast; ring
    cases d' <;> simp only [depth, hx, hy'] <;> first | exact absurd rfl hne | linarith
  · cases d' <;> simp only [depth, hx, hy] <;> push_cast <;> first | exact absurd rfl hne | linarith
  · cases d' <;> simp only [depth, hx, hy] <;> push_cast <;> first | exact absurd rfl hne | linarith
  · have hx' : (b.x : Rat) = a.x - 1 := by rw [← hx]; push_cast; ring
    cases d' <;> simp only [depth, hx', hy] <;> first | exact absurd rfl hne | linarith

theorem depth_inset (frame : Rect Rat) (p : Point Rat) (m : Rat) (d : Direction) :
    depth (frame.inset m) p d = depth frame p d - m := by
  cases d <;> simp only [depth, Rect.left_inset, Rect.right_inset, Rect.top_inset,
    Rect.bottom_inset] <;> ring

/-- A frame covers a square if all edges are half a side away from its centre. -/
theorem covers_square_iff : frame.covers (a.square side) = true ↔
    ∀ d, side / 2 ≤ depth frame (a.square side).center d := by
  rw [Rect.covers_iff, center_square]
  simp only [Cell.left_square, Cell.right_square, Cell.top_square, Cell.bottom_square]
  constructor
  · rintro ⟨⟨hl, hr⟩, ht, hb⟩ d
    cases d <;> simp only [depth] <;> linarith
  · intro h
    have hu := h .up
    have hr := h .right
    have hd := h .down
    have hl := h .left
    simp only [depth] at hu hr hd hl
    exact ⟨⟨by linarith, by linarith⟩, by linarith, by linarith⟩

/-- It meets the square if no edge is further out than that. -/
theorem meets_square_iff : frame.meets (a.square side) = true ↔
    ∀ d, -(side / 2) ≤ depth frame (a.square side).center d := by
  rw [Rect.meets_iff, center_square]
  simp only [Cell.left_square, Cell.right_square, Cell.top_square, Cell.bottom_square]
  constructor
  · rintro ⟨⟨hl, hr⟩, ht, hb⟩ d
    cases d <;> simp only [depth] <;> linarith
  · intro h
    have hu := h .up
    have hr := h .right
    have hd := h .down
    have hl := h .left
    simp only [depth] at hu hr hd hl
    exact ⟨⟨by linarith, by linarith⟩, by linarith, by linarith⟩

end Obstacle

end Schematic
