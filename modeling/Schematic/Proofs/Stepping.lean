import Schematic.Proofs.Distance
import Schematic.Proofs.Exact

/-!
# Steps among obstacles

What the access of a grid with obstacles allows, said of the cell that a step leads to.

* `AccessGrid.mem_successors_ofObstacles`: the steps of a grid with obstacles.
* `AccessGrid.step_covered_or_clear`: a step comes from within a grown obstacle or leads to
  a cell that meets none.
-/

namespace Schematic

/-! ### Squares next to each other -/

section Squares

variable {r s q : Rect Rat} {side margin : Rat} {a b : Cell} {u : Point Rat}

/-- What meets a part of a rectangle meets the rectangle. -/
theorem Rect.meets_of_covers (hr : r.covers q = true) (hs : s.meets q = true) :
    r.meets s = true := by
  rw [covers_iff] at hr
  rw [meets_iff] at hs ⊢
  exact ⟨⟨hr.1.1.trans hs.1.2, hs.1.1.trans hr.1.2⟩, hr.2.1.trans hs.2.2, hs.2.1.trans hr.2.2⟩

theorem Rect.meets_of_holds (hr : r.holds u = true) (hs : s.holds u = true) : r.meets s = true := by
  rw [holds_iff] at hr hs
  rw [meets_iff]
  exact ⟨⟨hr.1.1.trans hs.1.2, hs.1.1.trans hr.1.2⟩, hr.2.1.trans hs.2.2, hs.2.1.trans hr.2.2⟩

theorem Rect.covers_trans (hr : r.covers s = true) (hs : s.covers q = true) : r.covers q = true := by
  rw [covers_iff] at hr hs ⊢
  exact ⟨⟨hr.1.1.trans hs.1.1, hs.1.2.trans hr.1.2⟩, hr.2.1.trans hs.2.1, hs.2.2.trans hr.2.2⟩

/-- A rectangle lies within the same one grown. -/
theorem Rect.covers_grown (r : Rect Rat) (h : 0 ≤ margin) : (r.inset (-margin)).covers r = true := by
  rw [covers_iff]
  simp only [left_inset, right_inset, top_inset, bottom_inset]
  exact ⟨⟨by linarith, by linarith⟩, by linarith, by linarith⟩

theorem Rect.holds_grown (h : r.holds u = true) (hmargin : 0 ≤ margin) :
    (r.inset (-margin)).holds u = true := by
  rw [holds_iff] at h ⊢
  simp only [left_inset, right_inset, top_inset, bottom_inset]
  exact ⟨⟨by linarith, by linarith⟩, by linarith, by linarith⟩

theorem Rect.meets_square_of_covers (hside : 0 < side) (h : r.covers (a.square side) = true) :
    r.meets (a.square side) = true := by
  rw [covers_iff] at h
  simp only [Cell.left_square, Cell.right_square, Cell.top_square, Cell.bottom_square] at h
  rw [meets_iff]
  simp only [Cell.left_square, Cell.right_square, Cell.top_square, Cell.bottom_square]
  exact ⟨⟨by linarith [h.1.1], by linarith [h.1.2]⟩, by linarith [h.2.1], by linarith [h.2.2]⟩

theorem Cell.Beside.coordinates (h : a.Beside b) :
    ((b.x : Rat) = a.x ∧ ((b.y : Rat) = a.y + 1 ∨ (b.y : Rat) = a.y - 1)) ∨
      ((b.y : Rat) = a.y ∧ ((b.x : Rat) = a.x + 1 ∨ (b.x : Rat) = a.x - 1)) := by
  rcases Cell.beside_iff.1 h with ⟨hx, hy | hy⟩ | ⟨hy, hx | hx⟩
  · exact Or.inl ⟨by rw [hx], Or.inl (by rw [← hy]; push_cast; rfl)⟩
  · exact Or.inl ⟨by rw [hx], Or.inr (by rw [← hy]; push_cast; ring)⟩
  · exact Or.inr ⟨by rw [hy], Or.inl (by rw [← hx]; push_cast; rfl)⟩
  · exact Or.inr ⟨by rw [hy], Or.inr (by rw [← hx]; push_cast; ring)⟩

/-- Squares next to each other touch. -/
theorem Cell.Beside.meets (hside : 0 < side) (h : a.Beside b) :
    (a.square side).meets (b.square side) = true := by
  rw [Rect.meets_iff]
  simp only [Cell.left_square, Cell.right_square, Cell.top_square, Cell.bottom_square]
  rcases h.coordinates with ⟨hx, hy | hy⟩ | ⟨hy, hx | hx⟩ <;> rw [hx, hy] <;>
    refine ⟨⟨?_, ?_⟩, ?_, ?_⟩ <;> nlinarith

/-- Around a rectangle that covers a square, one grown by a square covers the next ones. -/
theorem Cell.Beside.covers (hside : 0 < side) (h : a.Beside b)
    (hr : r.covers (a.square side) = true) : (r.inset (-side)).covers (b.square side) = true := by
  rw [Rect.covers_iff] at hr ⊢
  simp only [Cell.left_square, Cell.right_square, Cell.top_square, Cell.bottom_square] at hr
  simp only [Cell.left_square, Cell.right_square, Cell.top_square, Cell.bottom_square,
    Rect.left_inset, Rect.right_inset, Rect.top_inset, Rect.bottom_inset]
  obtain ⟨⟨hl, hr⟩, ht, hb⟩ := hr
  rcases h.coordinates with ⟨hx, hy | hy⟩ | ⟨hy, hx | hx⟩ <;> rw [hx, hy] <;>
    refine ⟨⟨?_, ?_⟩, ?_, ?_⟩ <;> nlinarith

end Squares

namespace AccessGrid

variable {canvas : Rect Rat} {frames : List (Rect Rat)} {margin side : Rat} {a b : Cell}

/-- The access of a cell of a grid with obstacles. -/
theorem access_ofObstacles (h : (ofObstacles canvas frames margin side).contains a = true) :
    (ofObstacles canvas frames margin side).access a =
      a.accessAmong (frames.map (Obstacle.ofFrame margin)) (cellCount side canvas.right)
        (cellCount side canvas.bottom) side := by
  rw [access, dif_pos h]
  have hx : a.x < cellCount side canvas.right := (contains_iff.1 h).1
  have hpos : 0 < cellCount side canvas.right := by omega
  simp only [ofObstacles, Array.getElem_ofFn]
  -- the place of a cell in its row gives back its coordinates
  congr 1
  refine Cell.ext ?_ ?_
  · dsimp only
    rw [Nat.add_comm, Nat.add_mul_mod_self_right, Nat.mod_eq_of_lt hx]
  · dsimp only
    rw [Nat.add_comm, Nat.add_mul_div_right _ _ hpos, Nat.div_eq_of_lt hx, Nat.zero_add]

/-- A cell with a neighbour in the grid does not lie at the edge of the grid there. -/
theorem not_atBorder {width height : ℕ} {d : Direction} (h : a.neighbor? d = some b)
    (hx : b.x < width) (hy : b.y < height) : a.atBorder width height d = false := by
  rcases Cell.neighbor?_cases h with ⟨rfl, h₁, h₂⟩ | ⟨rfl, h₁, h₂⟩ | ⟨rfl, h₁, h₂⟩ | ⟨rfl, h₁, h₂⟩
  all_goals simp [Cell.atBorder]; omega

/-- **A step among obstacles** goes where the obstacle around a cell is left the fastest, or
out of an obstacle, or to a cell that meets none. -/
inductive FreeStep (obstacles : List (Obstacle Rat)) (side : Rat) (a b : Cell) : Prop
  | escape (o : Obstacle Rat) (d : Direction) :
      Obstacle.covering? obstacles (a.square side) = some o → a.neighbor? d = some b →
      d ∈ Obstacle.escapes o.frame (a.square side).center → FreeStep obstacles side a b
  | leave (o : Obstacle Rat) : Obstacle.covering? obstacles (a.square side) = some o →
      Obstacle.covering? obstacles (b.square side) = none → FreeStep obstacles side a b
  | clear : Obstacle.meets obstacles (b.square side) = false → FreeStep obstacles side a b

theorem allows_accessAmong {obstacles : List (Obstacle Rat)} {width height : ℕ} {d : Direction}
    (hn : a.neighbor? d = some b) (hborder : a.atBorder width height d = false) :
    (a.accessAmong obstacles width height side).allows d = true ↔ FreeStep obstacles side a b := by
  -- there is one direction only from a cell to a neighbour
  have hd : ∀ d', a.neighbor? d' = some b → d' = d := fun d' h' => by
    rw [← Cell.between_of_neighbor? h', Cell.between_of_neighbor? hn]
  rw [Cell.accessAmong, Access.allows_ofFn, nextSquare_square hn]
  cases hcover : Obstacle.covering? obstacles (a.square side) with
  | none =>
    simp only [hborder]
    constructor
    · intro h
      exact .clear (by simpa using h)
    · rintro (⟨o, d', ho, -, -⟩ | ⟨o, ho, -⟩ | h)
      · simp [hcover] at ho
      · simp [hcover] at ho
      · simp [h]
  | some o =>
    simp only [hborder]
    constructor
    · intro h
      by_cases hfree : d ∈ Obstacle.escapes o.frame (a.square side).center
      · exact .escape o d hcover hn hfree
      · cases hnext : Obstacle.covering? obstacles (b.square side) with
        | none => exact .leave o hcover hnext
        | some o' => exact .clear (by simpa [hfree, hnext] using h)
    · rintro (⟨o', d', ho, hn', hfree⟩ | ⟨o', ho, hnext⟩ | h)
      · obtain rfl : o = o' := by simpa [hcover] using ho
        obtain rfl := hd d' hn'
        simp [hfree]
      · simp [hnext]
      · simp [h]

theorem mem_successors_ofObstacles : b ∈ (ofObstacles canvas frames margin side).successors a ↔
    (ofObstacles canvas frames margin side).contains a = true ∧
      (ofObstacles canvas frames margin side).contains b = true ∧ a.Beside b ∧
        FreeStep (frames.map (Obstacle.ofFrame margin)) side a b := by
  constructor
  · intro h
    obtain ⟨ha, hb⟩ := contains_of_mem_successors h
    obtain ⟨d, hd, hn, -⟩ := mem_successors.1 h
    have hborder := not_atBorder hn (contains_iff.1 hb).1 (contains_iff.1 hb).2
    rw [access_ofObstacles ha] at hd
    exact ⟨ha, hb, ⟨d, hn⟩, (allows_accessAmong hn hborder).1 hd⟩
  · rintro ⟨ha, hb, ⟨d, hn⟩, hstep⟩
    have hborder := not_atBorder hn (contains_iff.1 hb).1 (contains_iff.1 hb).2
    refine mem_successors.2 ⟨d, ?_, hn, hb⟩
    rw [access_ofObstacles ha]
    exact (allows_accessAmong hn hborder).2 hstep

theorem covering?_eq_some {square : Rect Rat} {o : Obstacle Rat}
    (h : Obstacle.covering? (frames.map (Obstacle.ofFrame margin)) square = some o) :
    ∃ r ∈ frames, o = Obstacle.ofFrame margin r ∧ (r.inset (-margin)).covers square = true := by
  obtain ⟨r, hr, rfl⟩ := List.mem_map.1 (List.mem_of_find?_eq_some h)
  have hcover : (Obstacle.ofFrame margin r).grown.covers square = true := by
    simpa using List.find?_some h
  exact ⟨r, hr, rfl, hcover⟩

theorem covering?_eq_none {square : Rect Rat} :
    Obstacle.covering? (frames.map (Obstacle.ofFrame margin)) square = none ↔
      ∀ r ∈ frames, (r.inset (-margin)).covers square = false := by
  simp [Obstacle.covering?, Obstacle.ofFrame]

theorem obstacle_meets_eq_false {square : Rect Rat} :
    Obstacle.meets (frames.map (Obstacle.ofFrame margin)) square = false ↔
      ∀ r ∈ frames, (r.inset (-margin)).meets square = false := by
  simp [Obstacle.meets, Obstacle.ofFrame]

/-- **A step comes from within a grown obstacle**, or leads to a cell that meets none. -/
theorem step_covered_or_clear (h : b ∈ (ofObstacles canvas frames margin side).successors a) :
    (∃ r ∈ frames, (r.inset (-margin)).covers (a.square side) = true) ∨
      ∀ r ∈ frames, (r.inset (-margin)).meets (b.square side) = false := by
  obtain ⟨-, -, -, hstep⟩ := mem_successors_ofObstacles.1 h
  rcases hstep with ⟨o, d, ho, -, -⟩ | ⟨o, ho, -⟩ | hclear
  · obtain ⟨r, hr, -, hcover⟩ := covering?_eq_some ho
    exact Or.inl ⟨r, hr, hcover⟩
  · obtain ⟨r, hr, -, hcover⟩ := covering?_eq_some ho
    exact Or.inl ⟨r, hr, hcover⟩
  · exact Or.inr (obstacle_meets_eq_false.1 hclear)

end AccessGrid

end Schematic
