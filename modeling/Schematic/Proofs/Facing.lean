import Schematic.Proofs.Claiming

/-!
# Cells that face each other

Two boxes that do not meet are strictly apart along a column, along a row, or along both. Their
candidates are the cells that are outermost towards the other box wherever the two are apart. They
are found by narrowing the cells of a box direction by direction, and what carries the argument is
that the cells of a box are a block: moving a cell of the block along one axis leaves it in the
block, and as far out as it was along the other axis.

* `Rect.Beyond`: the directions in which a rectangle lies strictly beyond another one.
* `Cell.along`: how far a cell lies in a direction.
* `outermost`, `narrow`: narrowing a list of cells in a direction.
* `foldl_narrow`: narrowing a block in one direction after the other.
* `AccessGrid.facingCells`: the cells of a rectangle that face another one.
* `AccessGrid.candidates_face`: the candidates of two boxes.
-/

namespace Schematic

instance : Fintype Direction := .ofList Direction.all fun d => by cases d <;> decide

/-- The second rectangle lies **strictly beyond** the edge of the first one in a direction. -/
def Rect.Beyond (d : Direction) (r s : Rect Rat) : Prop :=
  match d with
  | .up => s.bottom < r.top
  | .right => r.right < s.left
  | .down => r.bottom < s.top
  | .left => s.right < r.left

/-- How far a cell lies in a direction. -/
def Cell.along (d : Direction) (c : Cell) : ℤ :=
  match d with
  | .up => -c.y
  | .right => c.x
  | .down => c.y
  | .left => -c.x

/-- A cell of a list that is **outermost** in a direction: no cell of the list lies further. -/
def Outermost (d : Direction) (cells : List Cell) (c : Cell) : Prop :=
  ∀ c' ∈ cells, c'.along d ≤ c.along d

instance (d : Direction) (r s : Rect Rat) : Decidable (r.Beyond d s) := by
  cases d <;> unfold Rect.Beyond <;> infer_instance

instance (d : Direction) (cells : List Cell) (c : Cell) : Decidable (Outermost d cells c) := by
  unfold Outermost
  infer_instance

/-- The outermost cells of a list in a direction. -/
def outermost (d : Direction) (cells : List Cell) : List Cell :=
  cells.filter fun c => Outermost d cells c

/-- Narrow the cells of a rectangle in a direction if another rectangle lies beyond it there. -/
def narrow (r s : Rect Rat) (cells : List Cell) (d : Direction) : List Cell :=
  if r.Beyond d s then outermost d cells else cells

/-- **The cells of a rectangle that face another one**, column by column: those that are outermost
in every direction in which the other one lies beyond. -/
def AccessGrid.facingCells (g : AccessGrid Rat) (r s : Rect Rat) : List Cell :=
  (g.cellsIn r).filter fun c => ∀ d, r.Beyond d s → Outermost d (g.cellsIn r) c

/-- The axis of a direction. -/
def Direction.axis : Direction → Cell → ℕ
  | up | down => Cell.y
  | left | right => Cell.x

/-- Whether the numbers of cells grow in a direction. -/
def Direction.forward : Direction → Bool
  | up | left => false
  | down | right => true

variable {g : AccessGrid Rat} {r s source target : Rect Rat} {cells : List Cell} {a b c : Cell}
  {d e : Direction}

/-! ### Directions -/

theorem Rect.beyond_opposite : r.Beyond d.opposite s ↔ s.Beyond d r := by
  cases d <;> rfl

/-- Rectangles that do not meet are apart in some direction. -/
theorem Rect.exists_beyond (h : r.meets s = false) : ∃ d, r.Beyond d s := by
  rw [← Bool.not_eq_true, meets_iff] at h
  simp only [not_and_or, not_le] at h
  rcases h with (h | h) | h | h
  · exact ⟨.left, h⟩
  · exact ⟨.right, h⟩
  · exact ⟨.up, h⟩
  · exact ⟨.down, h⟩

/-- The square of a cell of a rectangle lies between its edges. -/
theorem bounds_of_mem_cellsIn (hside : 0 < g.cellSide) (hc : c ∈ g.cellsIn r) :
    (r.left ≤ c.x * g.cellSide ∧ (c.x + 1) * g.cellSide ≤ r.right) ∧
      r.top ≤ c.y * g.cellSide ∧ (c.y + 1) * g.cellSide ≤ r.bottom := by
  simpa using Rect.covers_iff.1 ((mem_cellsIn hside).1 hc).2

/-- A rectangle that has a cell is not turned inside out. -/
theorem Rect.lt_of_mem_cellsIn (hside : 0 < g.cellSide) (hc : c ∈ g.cellsIn r) :
    r.left < r.right ∧ r.top < r.bottom := by
  obtain ⟨⟨hl, hr⟩, ht, hb⟩ := bounds_of_mem_cellsIn hside hc
  exact ⟨by linarith, by linarith⟩

/-- A rectangle does not lie beyond another one on opposite sides if both have cells. -/
theorem Rect.not_beyond_opposite (hside : 0 < g.cellSide) (ha : a ∈ g.cellsIn r)
    (hb : b ∈ g.cellsIn s) (h : r.Beyond d s) : ¬r.Beyond d.opposite s := by
  obtain ⟨hrx, hry⟩ := Rect.lt_of_mem_cellsIn hside ha
  obtain ⟨hsx, hsy⟩ := Rect.lt_of_mem_cellsIn hside hb
  rw [beyond_opposite]
  cases d <;> simp only [Beyond] at h ⊢ <;> linarith

/-- **Cells of rectangles that are apart** are apart themselves. -/
theorem along_lt_of_beyond (hside : 0 < g.cellSide) (ha : a ∈ g.cellsIn r) (hb : b ∈ g.cellsIn s)
    (h : r.Beyond d s) : a.along d < b.along d := by
  obtain ⟨⟨hal, har⟩, hat, hab⟩ := bounds_of_mem_cellsIn hside ha
  obtain ⟨⟨hbl, hbr⟩, hbt, hbb⟩ := bounds_of_mem_cellsIn hside hb
  have hlt : ∀ m n : ℕ, m * g.cellSide < n * g.cellSide → m < n := fun m n hmn => by
    exact_mod_cast lt_of_mul_lt_mul_right hmn hside.le
  cases d <;> simp only [Rect.Beyond] at h <;> simp only [Cell.along, neg_lt_neg_iff, Nat.cast_lt]
  all_goals exact hlt _ _ (by linarith)

/-! ### Narrowing a block -/

/-- The first cell moved along the axis of a direction to where the second one is. -/
def Cell.movedTo (d : Direction) (c c' : Cell) : Cell :=
  match d with
  | .up | .down => ⟨c.x, c'.y⟩
  | .left | .right => ⟨c'.x, c.y⟩

theorem Cell.along_movedTo (d : Direction) (c c' : Cell) :
    (c.movedTo d c').along d = c'.along d := by
  cases d <;> rfl

/-- Along the other axis the cell stays where it is. -/
theorem Cell.along_movedTo_of_ne (hne : e ≠ d) (hopp : e ≠ d.opposite) (c c' : Cell) :
    (c.movedTo d c').along e = c.along e := by
  revert hne hopp
  cases d <;> cases e <;> simp [along, movedTo, Direction.opposite]

/-- A list of cells that is a block, a product of columns and rows: it has the cell in the column of
one of its cells and the row of another one. -/
def IsProduct (cells : List Cell) : Prop := ∀ a ∈ cells, ∀ b ∈ cells, ⟨a.x, b.y⟩ ∈ cells

theorem IsProduct.movedTo (h : IsProduct cells) (ha : a ∈ cells) (hb : b ∈ cells) (d : Direction) :
    a.movedTo d b ∈ cells := by
  cases d
  · exact h a ha b hb
  · exact h b hb a ha
  · exact h a ha b hb
  · exact h b hb a ha

theorem isProduct_cellsIn (g : AccessGrid Rat) (r : Rect Rat) : IsProduct (g.cellsIn r) := by
  intro a ha b hb
  unfold AccessGrid.cellsIn at ha hb ⊢
  split at ha
  · rename_i hside
    rw [if_pos hside] at hb ⊢
    rw [mem_block] at ha hb ⊢
    exact ⟨ha.1, hb.2⟩
  · simp at ha

/-- **Narrowing in one more direction.** Of the cells of a block that are outermost in some
directions, those that are furthest in another one are outermost in the whole block: a cell of the
block that were further could be moved to where it is outermost in the others, too. -/
theorem outermost_filter {ds : List Direction} (hblock : IsProduct cells) (hd : r.Beyond d s)
    (hne : ∀ e ∈ ds, r.Beyond e s → e ≠ d ∧ e ≠ d.opposite) :
    outermost d (cells.filter fun c => ∀ e ∈ ds, r.Beyond e s → Outermost e cells c) =
      cells.filter fun c => ∀ e ∈ ds ++ [d], r.Beyond e s → Outermost e cells c := by
  rw [outermost, List.filter_filter]
  refine List.filter_congr fun c hc => ?_
  rw [Bool.eq_iff_iff]
  simp only [Bool.and_eq_true, decide_eq_true_eq, List.mem_append, List.mem_singleton]
  constructor
  · rintro ⟨hout, hall⟩ e (he | rfl) hbeyond
    · exact hall e he hbeyond
    · intro c' hc'
      have hmoved : c.movedTo e c' ∈
          cells.filter fun c => ∀ e ∈ ds, r.Beyond e s → Outermost e cells c := by
        refine List.mem_filter.2 ⟨hblock.movedTo hc hc' e, decide_eq_true fun f hf hfs => ?_⟩
        rw [Outermost, Cell.along_movedTo_of_ne (hne f hf hfs).1 (hne f hf hfs).2]
        exact hall f hf hfs
      rw [← Cell.along_movedTo e c c']
      exact hout _ hmoved
  · intro hall
    exact ⟨fun c' hc' => hall d (Or.inr rfl) hd c' (List.mem_of_mem_filter hc'),
      fun e he => hall e (Or.inl he)⟩

/-- **Narrowing a block in one direction after the other** leaves the cells that are outermost in
all of them. -/
theorem foldl_narrow (hblock : IsProduct cells) (hopp : ∀ d, r.Beyond d s → ¬r.Beyond d.opposite s)
    {ds : List Direction} (hds : ds.Nodup) :
    ds.foldl (narrow r s) cells =
      cells.filter fun c => ∀ d ∈ ds, r.Beyond d s → Outermost d cells c := by
  induction ds using List.reverseRecOn with
  | nil => simp
  | append_singleton ds d ih =>
    obtain ⟨hnodup, -, hnew⟩ := List.nodup_append.1 hds
    rw [List.foldl_concat, ih hnodup, narrow]
    split
    · rename_i hd
      refine outermost_filter hblock hd fun e he hbeyond => ⟨hnew e he d (by simp), ?_⟩
      rintro rfl
      exact hopp d hd hbeyond
    · rename_i hd
      refine List.filter_congr fun c _ => ?_
      simp only [List.mem_append, List.mem_singleton]
      congr 1
      rw [eq_iff_iff]
      constructor
      · rintro hall e (he | rfl) hbeyond
        · exact hall e he hbeyond
        · exact absurd hbeyond hd
      · exact fun hall e he => hall e (Or.inl he)

/-- Narrowing in all directions leaves the cells that face the other rectangle. -/
theorem foldl_narrow_cellsIn (hside : 0 < g.cellSide) (ha : a ∈ g.cellsIn r) (hb : b ∈ g.cellsIn s)
    {ds : List Direction} (hds : ds.Nodup) (hall : ∀ d, d ∈ ds) :
    ds.foldl (narrow r s) (g.cellsIn r) = g.facingCells r s := by
  rw [foldl_narrow (isProduct_cellsIn g r)
    (fun d => Rect.not_beyond_opposite hside ha hb) hds, AccessGrid.facingCells]
  refine List.filter_congr fun c _ => ?_
  simp [hall]

/-! ### Candidates -/

/-- The extreme cells along an axis are those that no other cell exceeds. -/
theorem extremeCells_eq_filter (axis : Cell → ℕ) (greatest : Bool) (cells : List Cell) :
    extremeCells axis greatest cells = cells.filter fun c =>
      ∀ c' ∈ cells, if greatest then axis c' ≤ axis c else axis c ≤ axis c' := by
  simp only [extremeCells]
  split
  · rename_i m hm
    refine List.filter_congr fun c hc => ?_
    rw [Bool.eq_iff_iff, beq_iff_eq, decide_eq_true_iff]
    cases greatest with
    | true =>
      obtain ⟨hmem, hmax⟩ := List.max?_eq_some_iff.1 hm
      simp only [List.mem_map, forall_exists_index, and_imp, forall_apply_eq_imp_iff₂] at hmem hmax
      obtain ⟨c', hc', rfl⟩ := hmem
      exact ⟨fun heq x hx => (hmax x hx).trans heq.ge,
        fun hall => le_antisymm (hmax c hc) (hall c' hc')⟩
    | false =>
      obtain ⟨hmem, hmin⟩ := List.min?_eq_some_iff.1 hm
      simp only [List.mem_map, forall_exists_index, and_imp, forall_apply_eq_imp_iff₂] at hmem hmin
      obtain ⟨c', hc', rfl⟩ := hmem
      exact ⟨fun heq x hx => heq.le.trans (hmin x hx),
        fun hall => le_antisymm (hall c' hc') (hmin c hc)⟩
  · rename_i hm
    obtain rfl : cells = [] := by cases greatest <;> simpa using hm
    rfl

/-- The extreme cells along an axis are the outermost ones in one of its directions. -/
theorem extremeCells_eq_outermost (d : Direction) (cells : List Cell) :
    extremeCells d.axis d.forward cells = outermost d cells := by
  rw [extremeCells_eq_filter, outermost]
  refine List.filter_congr fun c _ => ?_
  cases d <;> simp [Outermost, Direction.axis, Direction.forward, Cell.along]

theorem facing_eq_outermost (d : Direction) (ends : List Cell × List Cell) :
    facing d.axis d.forward ends = (outermost d ends.1, outermost d.opposite ends.2) := by
  rw [facing, ← extremeCells_eq_outermost, ← extremeCells_eq_outermost]
  cases d <;> rfl

/-- One step of narrowing the candidates narrows either list. -/
theorem facing_eq_narrow (source target : Rect Rat) (d : Direction) (ends : List Cell × List Cell) :
    (if source.Beyond d target then facing d.axis d.forward ends else ends) =
      (narrow source target ends.1 d, narrow target source ends.2 d.opposite) := by
  simp only [narrow, Rect.beyond_opposite, facing_eq_outermost]
  split <;> rfl

/-- **Candidates by narrowing**: of boxes that do not meet, both with cells, either list is narrowed
in all directions. -/
theorem candidates_eq_narrow (hmeets : source.meets target = false) (hs : g.cellsIn source ≠ [])
    (ht : g.cellsIn target ≠ []) : g.candidates source target =
      ([Direction.right, .left, .down, .up].foldl (narrow source target) (g.cellsIn source),
        [Direction.left, .right, .up, .down].foldl (narrow target source) (g.cellsIn target)) := by
  have hkeep : (source.meets target || (g.cellsIn source).isEmpty || (g.cellsIn target).isEmpty) =
      false := by
    simp [hmeets, hs, ht]
  have hright := facing_eq_narrow source target .right
  have hleft := facing_eq_narrow source target .left
  have hdown := facing_eq_narrow source target .down
  have hup := facing_eq_narrow source target .up
  simp only [Rect.Beyond, Direction.axis, Direction.forward, Direction.opposite]
    at hright hleft hdown hup
  simp only [AccessGrid.candidates, hkeep, Bool.false_eq_true, if_false, hright, hleft, hdown, hup,
    List.foldl_cons, List.foldl_nil]

/-- **Lists of cells that face each other**: they are the cells of either box that face the other
one, neither list is empty, and wherever the boxes are apart, so are the cells. -/
structure FaceToFace (g : AccessGrid Rat) (source target : Rect Rat)
    (ends : List Cell × List Cell) : Prop where
  separated : ∃ d, source.Beyond d target
  cells : ends = (g.facingCells source target, g.facingCells target source)
  nonempty : ends.1 ≠ [] ∧ ends.2 ≠ []
  apart : ∀ d, source.Beyond d target → ∀ a ∈ ends.1, ∀ b ∈ ends.2, a.along d < b.along d

theorem faceToFace_candidates (hside : 0 < g.cellSide) (hmeets : source.meets target = false)
    (hs : g.cellsIn source ≠ []) (ht : g.cellsIn target ≠ []) :
    FaceToFace g source target (g.candidates source target) := by
  obtain ⟨a, ha⟩ := List.exists_mem_of_ne_nil _ hs
  obtain ⟨b, hb⟩ := List.exists_mem_of_ne_nil _ ht
  refine ⟨Rect.exists_beyond hmeets, ?_, candidates_ne_nil hs ht, fun d hd x hx y hy => ?_⟩
  · rw [candidates_eq_narrow hmeets hs ht, foldl_narrow_cellsIn hside ha hb (by decide) (by decide),
      foldl_narrow_cellsIn hside hb ha (by decide) (by decide)]
  · exact along_lt_of_beyond hside (candidates_subset.1 hx) (candidates_subset.2 hy) hd

/-- A rectangle has cells if it covers the square of one. -/
theorem cellsIn_ne_nil_iff (hside : 0 < g.cellSide) : g.cellsIn r ≠ [] ↔
    ∃ c, g.contains c = true ∧ r.covers (c.square g.cellSide) = true := by
  simp only [ne_eq, List.eq_nil_iff_forall_not_mem, not_forall, not_not, mem_cellsIn hside]

/-- **Candidates face each other.** Boxes that meet, or of which one has no whole cell, keep all
their cells. Of all others the candidates are the cells that are outermost towards the other box
wherever the two are apart. -/
theorem AccessGrid.candidates_face (hside : 0 < g.cellSide) (source target : Rect Rat) :
    (source.meets target = true ∨
        (¬∃ c, g.contains c = true ∧ source.covers (c.square g.cellSide) = true) ∨
        (¬∃ c, g.contains c = true ∧ target.covers (c.square g.cellSide) = true) →
      g.candidates source target = (g.cellsIn source, g.cellsIn target)) ∧
    (source.meets target = false →
      (∃ c, g.contains c = true ∧ source.covers (c.square g.cellSide) = true) →
      (∃ c, g.contains c = true ∧ target.covers (c.square g.cellSide) = true) →
      FaceToFace g source target (g.candidates source target)) := by
  simp only [← cellsIn_ne_nil_iff hside, ne_eq, not_not]
  refine ⟨fun hkeep => ?_, faceToFace_candidates hside⟩
  rw [candidates, if_pos]
  rcases hkeep with h | h | h <;> simp [h]

/-- Two boxes one of which is to the right of the other and below it. -/
theorem diagonal_face :
    let g := AccessGrid.ofObstacles (.of 0 0 100 100) [] 0 10
    FaceToFace g (.of 5 10 25 20) (.of 50 45 30 25) ([⟨2, 2⟩], [⟨5, 5⟩]) := by
  intro g
  have hface := (AccessGrid.candidates_face (g := g) (by decide) (.of 5 10 25 20)
    (.of 50 45 30 25)).2 (by decide +kernel) ⟨⟨1, 1⟩, by decide +kernel, by decide +kernel⟩
    ⟨⟨5, 5⟩, by decide +kernel, by decide +kernel⟩
  have hends : g.candidates (.of 5 10 25 20) (.of 50 45 30 25) = ([⟨2, 2⟩], [⟨5, 5⟩]) := by
    decide +kernel
  rwa [hends] at hface

end Schematic
