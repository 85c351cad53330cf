import Schematic.Proofs.Escape

/-!
# Clear cells

Where obstacles keep away from each other and from the edges of the canvas, all clear
cells are connected, and every cell within an obstacle is connected with them.

* `Spaced`: obstacles that keep two cells away from each other and from the canvas.
* `Spaced.exists_clear_before`: a clear cell has a clear one to its left or above it.
* `Spaced.home`: so all clear cells are connected with the first cell of the grid.
* `Spaced.exists_clear_way`: the nearest edge of an obstacle gets nearer with every step
  towards it, until a clear cell is reached.
-/

namespace Schematic

/-! ### Rectangles apart from each other -/

/-- **Two rectangles are further apart** than a distance, along one of the axes. -/
def Rect.Apart (d : Rat) (r s : Rect Rat) : Prop :=
  (r.right + d < s.left ∨ s.right + d < r.left) ∨ r.bottom + d < s.top ∨ s.bottom + d < r.top

namespace Rect

variable {d : Rat} {r s q : Rect Rat}

instance (d : Rat) (r s : Rect Rat) : Decidable (Apart d r s) := by
  unfold Apart
  infer_instance

/-- What lies within the distance of the one does not meet the other. -/
theorem Apart.not_meets (h : Apart d r s) (hq : (r.inset (-d)).covers q = true) :
    s.meets q = false := by
  rw [Bool.eq_false_iff]
  intro hmeets
  rw [meets_iff] at hmeets
  rw [covers_iff] at hq
  simp only [left_inset, right_inset, top_inset, bottom_inset] at hq
  obtain ⟨⟨hl, hr⟩, ht, hb⟩ := hq
  obtain ⟨⟨hl', hr'⟩, ht', hb'⟩ := hmeets
  rcases h with (h | h) | h | h <;> linarith

theorem inset_inset (r : Rect Rat) (d e : Rat) : (r.inset d).inset e = r.inset (d + e) := by
  simp only [inset, of, Scalar.two_rat, mk.injEq, Point.mk.injEq, Size.mk.injEq]
  refine ⟨⟨?_, ?_⟩, ?_, ?_⟩ <;> ring

theorem inset_neg_inset (r : Rect Rat) (d : Rat) : (r.inset d).inset (-d) = r := by
  simp [inset, of]

theorem covers_of_inset (hd : 0 ≤ d) (h : (r.inset d).covers q = true) : r.covers q = true := by
  have := covers_trans ((r.inset d).covers_grown hd) h
  rwa [inset_neg_inset] at this

end Rect

/-! ### Obstacles that keep away from each other -/

/-- **Obstacles that keep away** from each other and from the edges of the canvas: their
grown frames leave more than two cells free. -/
structure Spaced (canvas : Rect Rat) (frames : List (Rect Rat)) (margin side : Rat) : Prop where
  side_pos : 0 < side
  left : canvas.left = 0
  top : canvas.top = 0
  inner : ∀ r ∈ frames, (canvas.inset (2 * side)).covers (r.inset (-margin)) = true
  apart : ∀ r ∈ frames, ∀ r' ∈ frames, r ≠ r' →
    Rect.Apart (2 * side) (r.inset (-margin)) (r'.inset (-margin))

/-- A cell that meets no grown obstacle. -/
def Clear (frames : List (Rect Rat)) (margin side : Rat) (c : Cell) : Prop :=
  ∀ r ∈ frames, (r.inset (-margin)).meets (c.square side) = false

variable {canvas : Rect Rat} {frames : List (Rect Rat)} {margin side : Rat} {a b c : Cell}
  {r source : Rect Rat} {d : Direction}

/-- A way that consists of any number of steps. -/
def AccessGrid.Way {α : Type} (g : AccessGrid α) : Cell → Cell → Prop :=
  Relation.ReflTransGen fun a b => b ∈ g.successors a

theorem AccessGrid.Way.walk {α : Type} {g : AccessGrid α} (h : g.Way a b) : ∃ n, g.Walk a n b := by
  induction h with
  | refl => exact ⟨0, .here⟩
  | tail _ hstep ih =>
    obtain ⟨n, hn⟩ := ih
    exact ⟨n + 1, hn.step hstep⟩

/-- A clear cell may be entered from all sides. -/
theorem clear_step (ha : (AccessGrid.ofObstacles canvas frames margin side).contains a = true)
    (hb : (AccessGrid.ofObstacles canvas frames margin side).contains b = true)
    (hab : a.Beside b) (hclear : Clear frames margin side b) :
    b ∈ (AccessGrid.ofObstacles canvas frames margin side).successors a :=
  AccessGrid.mem_successors_ofObstacles.2
    ⟨ha, hb, hab, .clear (AccessGrid.obstacle_meets_eq_false.2 hclear)⟩

/-- The cells whose squares the canvas covers belong to its grid. -/
theorem contains_of_covers (hside : 0 < side) (h : canvas.covers (a.square side) = true) :
    (AccessGrid.ofObstacles canvas frames margin side).contains a = true := by
  rw [Rect.covers_iff] at h
  simp only [Cell.left_square, Cell.right_square, Cell.top_square, Cell.bottom_square] at h
  have hwidth : AccessGrid.cellCount side canvas.right = Scalar.ceilNat (canvas.right / side) :=
    if_pos hside
  have hheight : AccessGrid.cellCount side canvas.bottom = Scalar.ceilNat (canvas.bottom / side) :=
    if_pos hside
  rw [AccessGrid.contains_iff]
  change a.x < AccessGrid.cellCount side canvas.right ∧ a.y < AccessGrid.cellCount side canvas.bottom
  rw [hwidth, hheight, Scalar.lt_ceilNat_div hside, Scalar.lt_ceilNat_div hside]
  exact ⟨by linarith [h.1.2], by linarith [h.2.2]⟩

/-- A cell a step away from the edges of a rectangle has all its neighbours within. -/
theorem exists_neighbor (hside : 0 < side) (hl : 0 ≤ r.left) (ht : 0 ≤ r.top)
    (h : (r.inset side).covers (a.square side) = true) (d : Direction) :
    ∃ b, a.neighbor? d = some b ∧ r.covers (b.square side) = true := by
  have hbeside : ∀ b, a.neighbor? d = some b → r.covers (b.square side) = true := by
    intro b hb
    have := Cell.Beside.covers hside ⟨d, hb⟩ h
    rwa [Rect.inset_neg_inset] at this
  rw [Rect.covers_iff] at h
  simp only [Cell.left_square, Cell.top_square, Rect.left_inset, Rect.top_inset] at h
  cases d with
  | up =>
    have hy : a.y ≠ 0 := by
      intro h0
      rw [h0] at h
      have := h.2.1
      push_cast at this
      linarith
    have hb : a.neighbor? .up = some ⟨a.x, a.y - 1⟩ := if_neg hy
    exact ⟨_, hb, hbeside _ hb⟩
  | right => exact ⟨⟨a.x + 1, a.y⟩, rfl, hbeside _ rfl⟩
  | down => exact ⟨⟨a.x, a.y + 1⟩, rfl, hbeside _ rfl⟩
  | left =>
    have hx : a.x ≠ 0 := by
      intro h0
      rw [h0] at h
      have := h.1.1
      push_cast at this
      linarith
    have hb : a.neighbor? .left = some ⟨a.x - 1, a.y⟩ := if_neg hx
    exact ⟨_, hb, hbeside _ hb⟩

namespace Spaced

variable (h : Spaced canvas frames margin side)

include h

/-- Around an obstacle, up to two cells away, there is no other one. -/
theorem clear_of_near (hr : r ∈ frames)
    (hnear : ((r.inset (-margin)).inset (-(2 * side))).covers (c.square side) = true)
    (hclear : (r.inset (-margin)).meets (c.square side) = false) : Clear frames margin side c := by
  intro r' hr'
  by_cases hrr : r = r'
  · rwa [← hrr]
  · exact (h.apart r hr r' hr' hrr).not_meets hnear

theorem inner_edges (hr : r ∈ frames) :
    2 * side ≤ (r.inset (-margin)).left ∧ 2 * side ≤ (r.inset (-margin)).top := by
  have hin := Rect.covers_iff.1 (h.inner r hr)
  rw [Rect.left_inset, Rect.top_inset, h.left, h.top, zero_add] at hin
  exact ⟨hin.1.1, hin.2.1⟩

/-- **A clear cell** other than the first one has a clear one to its left or above it. -/
theorem exists_clear_before (hc : Clear frames margin side c) (hne : c ≠ ⟨0, 0⟩) :
    ∃ b, b.Beside c ∧ Clear frames margin side b ∧ b.x ≤ c.x ∧ b.y ≤ c.y := by
  have hside := h.side_pos
  have habove : c.y ≠ 0 → Cell.Beside ⟨c.x, c.y - 1⟩ c := fun hy =>
    Cell.beside_iff.2 (Or.inl ⟨rfl, Or.inl (by dsimp only; omega)⟩)
  by_cases hx : c.x = 0
  · -- no obstacle reaches the first column
    have hy : c.y ≠ 0 := fun hy => hne (Cell.ext hx hy)
    refine ⟨⟨c.x, c.y - 1⟩, habove hy, fun r hr => ?_, le_rfl, Nat.sub_le _ _⟩
    rw [Bool.eq_false_iff]
    intro hmeets
    have hleft := (Rect.meets_iff.1 hmeets).1.1
    simp only [Cell.right_square, hx] at hleft
    push_cast at hleft
    linarith [(h.inner_edges hr).1]
  · have hleft : Cell.Beside ⟨c.x - 1, c.y⟩ c :=
      Cell.beside_iff.2 (Or.inr ⟨rfl, Or.inl (by dsimp only; omega)⟩)
    by_cases hl : Clear frames margin side ⟨c.x - 1, c.y⟩
    · exact ⟨_, hleft, hl, Nat.sub_le _ _, le_rfl⟩
    · -- the obstacle to the left ends there, so the cell above it is within reach of it as well
      simp only [Clear, not_forall, Bool.not_eq_false] at hl
      obtain ⟨r, hr, hmeets⟩ := hl
      have hclear := hc r hr
      have hedges := h.inner_edges hr
      rw [Rect.meets_iff] at hmeets
      rw [Bool.eq_false_iff, Ne, Rect.meets_iff] at hclear
      simp only [Cell.left_square, Cell.right_square, Cell.top_square, Cell.bottom_square,
        Nat.cast_pred (Nat.pos_of_ne_zero hx), sub_add_cancel] at hmeets hclear
      obtain ⟨⟨h₁, h₂⟩, h₃, h₄⟩ := hmeets
      have hright : (r.inset (-margin)).right < c.x * side := by
        by_contra hge
        exact hclear ⟨⟨by linarith, not_lt.1 hge⟩, h₃, h₄⟩
      have hy : c.y ≠ 0 := by
        intro hy
        rw [hy] at h₃
        push_cast at h₃
        linarith
      refine ⟨⟨c.x, c.y - 1⟩, habove hy, h.clear_of_near hr ?_ ?_, le_rfl, Nat.sub_le _ _⟩
      · rw [Rect.covers_iff, Rect.left_inset, Rect.right_inset, Rect.top_inset, Rect.bottom_inset]
        simp only [Cell.left_square, Cell.right_square, Cell.top_square, Cell.bottom_square,
          Nat.cast_pred (Nat.pos_of_ne_zero hy)]
        exact ⟨⟨by linarith, by linarith⟩, by linarith, by linarith⟩
      · rw [Bool.eq_false_iff, Ne, Rect.meets_iff, Cell.left_square]
        intro hmeets
        exact absurd hmeets.1.2 (not_le.2 hright)

/-- **All clear cells are connected** with the first cell of the grid, in both directions. -/
theorem home (hc : Clear frames margin side c)
    (hin : (AccessGrid.ofObstacles canvas frames margin side).contains c = true) :
    (AccessGrid.ofObstacles canvas frames margin side).Way c ⟨0, 0⟩ ∧
      (AccessGrid.ofObstacles canvas frames margin side).Way ⟨0, 0⟩ c := by
  -- every clear cell before this one is nearer to the corner, by the sum of its coordinates
  induction hn : c.x + c.y using Nat.strong_induction_on generalizing c with
  | _ n ih =>
    by_cases hne : c = ⟨0, 0⟩
    · subst hne
      exact ⟨.refl, .refl⟩
    · obtain ⟨b, hbc, hb, hx, hy⟩ := h.exists_clear_before hc hne
      have hin' : (AccessGrid.ofObstacles canvas frames margin side).contains b = true := by
        rw [AccessGrid.contains_iff] at hin ⊢
        omega
      have hlt : b.x + b.y < n := by
        have := Cell.beside_iff.1 hbc
        omega
      obtain ⟨hto, hfrom⟩ := ih _ hlt hb hin' rfl
      exact ⟨.head (clear_step hin hin' hbc.symm hb) hto, hfrom.tail (clear_step hin' hin hbc hc)⟩

/-- A cell is covered by one obstacle at most. -/
theorem covering?_eq (hr : r ∈ frames)
    (hcover : (r.inset (-margin)).covers (a.square side) = true) :
    Obstacle.covering? (frames.map (Obstacle.ofFrame margin)) (a.square side) =
      some (Obstacle.ofFrame margin r) := by
  cases hfind : Obstacle.covering? (frames.map (Obstacle.ofFrame margin)) (a.square side) with
  | none =>
    have := AccessGrid.covering?_eq_none.1 hfind r hr
    simp [hcover] at this
  | some o =>
    obtain ⟨r', hr', rfl, hcover'⟩ := AccessGrid.covering?_eq_some hfind
    by_cases hrr : r = r'
    · rw [hrr]
    · -- two obstacles around one cell would be too near to each other
      have hnear : ((r.inset (-margin)).inset (-(2 * side))).covers (a.square side) = true :=
        Rect.covers_trans (Rect.covers_grown _ (by linarith [h.side_pos])) hcover
      have := (h.apart r hr r' hr' hrr).not_meets hnear
      simp [Rect.meets_square_of_covers h.side_pos hcover'] at this

/-- **A step towards the nearest edge** is allowed, and there is room for another one. -/
theorem exists_escape (hr : r ∈ frames)
    (hcover : (r.inset (-margin)).covers (a.square side) = true) :
    ∃ d b c, a.neighbor? d = some b ∧ b.neighbor? d = some c ∧
      b ∈ (AccessGrid.ofObstacles canvas frames margin side).successors a ∧
      (AccessGrid.ofObstacles canvas frames margin side).contains c = true ∧
      ∀ d', Obstacle.depth r (a.square side).center d ≤ Obstacle.depth r (a.square side).center d' := by
  have hside := h.side_pos
  obtain ⟨d, hd, hmin⟩ := Obstacle.exists_nearest r (a.square side).center
  have hroom : ((canvas.inset side).inset side).covers (a.square side) = true := by
    rw [Rect.inset_inset, ← two_mul]
    exact Rect.covers_trans (h.inner r hr) hcover
  -- two steps stay within the canvas, since the obstacle keeps two cells away from its edges
  have hleft : 0 ≤ (canvas.inset side).left := by
    rw [Rect.left_inset, h.left, zero_add]
    exact hside.le
  have htop : 0 ≤ (canvas.inset side).top := by
    rw [Rect.top_inset, h.top, zero_add]
    exact hside.le
  obtain ⟨b, hab, hb⟩ := exists_neighbor hside hleft htop hroom d
  obtain ⟨c, hbc, hc⟩ := exists_neighbor hside h.left.ge h.top.ge hb d
  have ha : canvas.covers (a.square side) = true :=
    Rect.covers_of_inset hside.le (Rect.covers_of_inset hside.le hroom)
  refine ⟨d, b, c, hab, hbc, ?_, contains_of_covers hside hc, hmin⟩
  exact AccessGrid.mem_successors_ofObstacles.2 ⟨contains_of_covers hside ha,
    contains_of_covers hside (Rect.covers_of_inset hside.le hb), ⟨d, hab⟩,
    .escape _ d (h.covering?_eq hr hcover) hab hd⟩

/-- Two steps over the edge of an obstacle lead to a clear cell. -/
theorem clear_beyond (hr : r ∈ frames)
    (hcover : (r.inset (-margin)).covers (a.square side) = true)
    (hab : a.neighbor? d = some b) (hbc : b.neighbor? d = some c)
    (hout : (r.inset (-margin)).covers (b.square side) = false) : Clear frames margin side c := by
  have hside := h.side_pos
  refine h.clear_of_near hr ?_ ?_
  · have := Cell.Beside.covers hside ⟨d, hbc⟩ (Cell.Beside.covers hside ⟨d, hab⟩ hcover)
    rwa [Rect.inset_inset _ (-side), ← neg_add, ← two_mul] at this
  · rw [Bool.eq_false_iff, Ne, Obstacle.covers_square_iff, not_forall] at hout
    obtain ⟨e, he⟩ := hout
    -- it is the edge ahead that the first step has come too near to
    obtain rfl : e = d := by
      by_contra hne
      exact he ((Obstacle.covers_square_iff.1 hcover e).trans
        (Obstacle.depth_le_neighbor hside hab hne))
    rw [Bool.eq_false_iff, Ne, Obstacle.meets_square_iff]
    intro hmeets
    have hc := hmeets e
    rw [Obstacle.depth_neighbor hbc] at hc
    linarith

/-- **A way out of an obstacle**: from every cell within it a clear cell can be reached. -/
theorem exists_clear_way (hr : r ∈ frames)
    (hcover : (r.inset (-margin)).covers (a.square side) = true) :
    ∃ c, (AccessGrid.ofObstacles canvas frames margin side).contains c = true ∧
      Clear frames margin side c ∧
      (AccessGrid.ofObstacles canvas frames margin side).Way a c := by
  -- some edge is `n` cells away at most, counted from behind the margin
  suffices hn : ∀ n : ℕ, ∀ a : Cell, (r.inset (-margin)).covers (a.square side) = true →
      ∀ d, Obstacle.depth r (a.square side).center d ≤ n * side - margin →
      ∃ c, (AccessGrid.ofObstacles canvas frames margin side).contains c = true ∧
        Clear frames margin side c ∧
        (AccessGrid.ofObstacles canvas frames margin side).Way a c by
    obtain ⟨n, hle⟩ := exists_nat_ge ((Obstacle.depth r (a.square side).center .up + margin) / side)
    rw [div_le_iff₀ h.side_pos] at hle
    exact hn n a hcover .up (by linarith)
  intro n
  induction n with
  | zero =>
    intro a hcover d hle
    have hdepth := Obstacle.covers_square_iff.1 hcover d
    rw [Obstacle.depth_inset] at hdepth
    push_cast at hle
    linarith [h.side_pos]
  | succ n ih =>
    intro a hcover d hle
    obtain ⟨d', b, c, hab, hbc, hstep, hin, hmin⟩ := h.exists_escape hr hcover
    by_cases hb : (r.inset (-margin)).covers (b.square side) = true
    · -- the edge that was nearest is nearer by a cell, so it serves again
      obtain ⟨e, he, hclear, hway⟩ := ih b hb d' (by
        rw [Obstacle.depth_neighbor hab]
        have := hmin d
        push_cast at hle
        linarith)
      exact ⟨e, he, hclear, hway.head hstep⟩
    · rw [Bool.not_eq_true] at hb
      have hclear := h.clear_beyond hr hcover hab hbc hb
      have hbin := (AccessGrid.contains_of_mem_successors hstep).2
      exact ⟨c, hin, hclear, .head hstep (.single (clear_step hbin hin ⟨d', hbc⟩ hclear))⟩

end Spaced

end Schematic
