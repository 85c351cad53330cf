import Schematic.Proofs.Distance
import Schematic.Proofs.Trimming
import Schematic.Proofs.Turning

/-!
# From cells to points

A path of cells next to each other, none of them twice, becomes a line through their
centres. Cut at the edges of two boxes it begins on the edge of the one and ends on the
edge of the other.

* `Rect.OnEdge`: the points of the edges of a rectangle.
* `onward_centers`: the line through the centres of a path goes on.
* `edgeCrossing_spec`, `Cut.crossings`: where a step, and where a cut crosses the edge of a
  rectangle.
* `Cut.line`: the line of a cut goes on from edge to edge, and keeps to the line of the path.
* `Cut.Line.drawn`: so does what is drawn of it.
-/

namespace Schematic

/-- A point on one of the four edges of a rectangle. -/
structure Rect.OnEdge (r : Rect Rat) (p : Point Rat) : Prop where
  within : r.holds p = true
  edge : p.x = r.left ∨ p.x = r.right ∨ p.y = r.top ∨ p.y = r.bottom

/-- A segment from a point of a segment to its end stays on that segment. -/
theorem OnSegment.trans {p q s u : Point Rat} (hs : OnSegment p q s) (hu : OnSegment s q u) :
    OnSegment p q u :=
  ⟨⟨(le_min hs.x.1 (min_le_right _ _)).trans hu.x.1, hu.x.2.trans (max_le hs.x.2 (le_max_right _ _))⟩,
    ⟨(le_min hs.y.1 (min_le_right _ _)).trans hu.y.1, hu.y.2.trans (max_le hs.y.2 (le_max_right _ _))⟩⟩

section Line

variable {p q s u : Point Rat} {line line' : List (Point Rat)}

theorem OnLine.reverse (h : OnLine line u) : OnLine line.reverse u := by
  obtain ⟨a, b, hi, hu⟩ := h
  exact ⟨b, a, by rw [← List.reverse_infix]; simpa using hi, hu.symm⟩

theorem OnLine.mono (h : OnLine line u) (hi : line <:+: line') : OnLine line' u := by
  obtain ⟨a, b, hab, hu⟩ := h
  exact ⟨a, b, hab.trans hi, hu⟩

/-- A line that begins later on its first segment covers no more. -/
theorem OnLine.trim_head (hs : OnSegment p q s) (h : OnLine (s :: q :: line) u) :
    OnLine (p :: q :: line) u :=
  onLine_cons.2 ((onLine_cons.1 h).imp hs.trans id)

theorem Onward.part (h : Onward line') (hi : line <:+: line') : Onward line :=
  ⟨fun a b hab => h.step a b (hab.trans hi), fun a b c habc => h.between a b c (habc.trans hi)⟩

end Line

section Centers

variable {g : AccessGrid Rat} {a b c : Cell} {path : List Cell} {r : Rect Rat}

/-- Cells of one column have centres of one column, and so on. -/
theorem center_x_eq_iff (hside : 0 < g.cellSide) : (g.center a).x = (g.center b).x ↔ a.x = b.x := by
  rw [AccessGrid.center_x, AccessGrid.center_x, add_left_inj, mul_left_inj' hside.ne', Nat.cast_inj]

theorem center_y_eq_iff (hside : 0 < g.cellSide) : (g.center a).y = (g.center b).y ↔ a.y = b.y := by
  rw [AccessGrid.center_y, AccessGrid.center_y, add_left_inj, mul_left_inj' hside.ne', Nat.cast_inj]

theorem center_x_lt_iff (hside : 0 < g.cellSide) : (g.center a).x < (g.center b).x ↔ a.x < b.x := by
  rw [AccessGrid.center_x, AccessGrid.center_x, add_lt_add_iff_right, mul_lt_mul_iff_left₀ hside,
    Nat.cast_lt]

theorem center_y_lt_iff (hside : 0 < g.cellSide) : (g.center a).y < (g.center b).y ↔ a.y < b.y := by
  rw [AccessGrid.center_y, AccessGrid.center_y, add_lt_add_iff_right, mul_lt_mul_iff_left₀ hside,
    Nat.cast_lt]

theorem center_step (hside : 0 < g.cellSide) (h : a.Beside b) : (g.center a).Step (g.center b) := by
  refine ⟨fun he => ?_, ?_⟩
  · have hx := (center_x_eq_iff (a := a) (b := b) hside).1 (by rw [he])
    have hy := (center_y_eq_iff (a := a) (b := b) hside).1 (by rw [he])
    rw [Cell.beside_iff] at h
    omega
  · rw [center_x_eq_iff hside, center_y_eq_iff hside]
    exact (Cell.beside_iff.1 h).imp And.left And.left

/-- A path that does not come back to the cell before goes on. -/
theorem center_between (hside : 0 < g.cellSide) (hab : a.Beside b) (hbc : b.Beside c) (hac : a ≠ c) :
    (g.center a).Between (g.center b) (g.center c) := by
  have hne : ¬(a.x = c.x ∧ a.y = c.y) := fun he => hac (Cell.ext he.1 he.2)
  rw [Cell.beside_iff] at hab hbc
  constructor
  · simp only [center_x_eq_iff hside, StrictlyBetween, center_y_lt_iff hside]
    omega
  · simp only [center_y_eq_iff hside, StrictlyBetween, center_x_lt_iff hside]
    omega

/-- **The line through the centres** of a path goes on. -/
theorem onward_centers (hside : 0 < g.cellSide) (hchain : path.IsChain Cell.Beside)
    (hnodup : path.Nodup) : Onward (path.map g.center) := by
  refine ⟨fun p q hi => ?_, fun p q r hi => ?_⟩
  · obtain ⟨cells, hcells, hmap⟩ := List.infix_map_iff.1 hi
    obtain ⟨a, b, rfl⟩ := List.length_eq_two.1 (by simpa using (congrArg List.length hmap).symm)
    obtain ⟨rfl, rfl⟩ : p = g.center a ∧ q = g.center b := by simpa using hmap
    exact center_step hside (by simpa using hchain.infix hcells)
  · obtain ⟨cells, hcells, hmap⟩ := List.infix_map_iff.1 hi
    obtain ⟨a, b, c, rfl⟩ := List.length_eq_three.1 (by simpa using (congrArg List.length hmap).symm)
    obtain ⟨rfl, rfl, rfl⟩ : p = g.center a ∧ q = g.center b ∧ r = g.center c := by simpa using hmap
    have hch := hchain.infix hcells
    have hnd := hnodup.sublist hcells.sublist
    simp only [List.isChain_cons_cons, List.isChain_singleton, and_true] at hch
    exact center_between hside hch.1 hch.2 (by simp at hnd; tauto)

theorem not_holds_iff {p : Point Rat} : r.holds p = false ↔
    p.x < r.left ∨ r.right < p.x ∨ p.y < r.top ∨ r.bottom < p.y := by
  rw [← Bool.not_eq_true, Rect.holds_iff]
  simp only [not_and_or, not_le, or_assoc]

/-- The step into a rectangle crosses the edge that the step back would cross. -/
theorem edgeCrossing_back (h : a.Beside b) (p : Point Rat) :
    edgeCrossing r p (.between b a) false = edgeCrossing r p (.between a b) true := by
  obtain ⟨d, h⟩ := h
  rw [Cell.between_of_neighbor? h, Cell.between_of_neighbor? (Cell.neighbor?_opposite h)]
  cases d <;> rfl

/-- **Where a step out of a rectangle crosses its edge**: on the way to the cell outside,
before its centre. -/
theorem edgeCrossing_spec (h : a.Beside b) (ha : r.holds (g.center a) = true)
    (hb : r.holds (g.center b) = false) (hside : 0 < g.cellSide) :
    let s := edgeCrossing r (g.center a) (.between a b) true
    OnSegment (g.center a) (g.center b) s ∧ s ≠ g.center b ∧ r.OnEdge s := by
  obtain ⟨d, h⟩ := h
  rw [Cell.between_of_neighbor? h]
  obtain ⟨⟨hl, hr⟩, ht, hb'⟩ := Rect.holds_iff.1 ha
  rw [not_holds_iff] at hb
  -- the coordinate along the step has to be the one that lies outside
  rcases Cell.neighbor?_cases h with ⟨rfl, hx, hy⟩ | ⟨rfl, hx, hy⟩ | ⟨rfl, hx, hy⟩ | ⟨rfl, hx, hy⟩
  · have hcx : (g.center b).x = (g.center a).x := (center_x_eq_iff hside).2 hx
    have hcy : (g.center b).y < (g.center a).y := (center_y_lt_iff hside).2 (by omega)
    have hout : (g.center b).y < r.top := by rcases hb with h | h | h | h <;> linarith
    exact ⟨⟨⟨min_le_left _ _, le_max_left _ _⟩,
        (min_le_right _ _).trans hout.le, ht.trans (le_max_left _ _)⟩,
      fun he => hout.ne' (by rw [← he]; rfl),
      Rect.holds_iff.2 ⟨⟨hl, hr⟩, le_rfl, ht.trans hb'⟩, Or.inr (Or.inr (Or.inl rfl))⟩
  · have hcy : (g.center b).y = (g.center a).y := (center_y_eq_iff hside).2 hy
    have hcx : (g.center a).x < (g.center b).x := (center_x_lt_iff hside).2 (by omega)
    have hout : r.right < (g.center b).x := by rcases hb with h | h | h | h <;> linarith
    exact ⟨⟨⟨(min_le_left _ _).trans hr, hout.le.trans (le_max_right _ _)⟩,
        min_le_left _ _, le_max_left _ _⟩,
      fun he => hout.ne (by rw [← he]; rfl),
      Rect.holds_iff.2 ⟨⟨hl.trans hr, le_rfl⟩, ht, hb'⟩, Or.inr (Or.inl rfl)⟩
  · have hcx : (g.center b).x = (g.center a).x := (center_x_eq_iff hside).2 hx
    have hcy : (g.center a).y < (g.center b).y := (center_y_lt_iff hside).2 (by omega)
    have hout : r.bottom < (g.center b).y := by rcases hb with h | h | h | h <;> linarith
    exact ⟨⟨⟨min_le_left _ _, le_max_left _ _⟩,
        (min_le_left _ _).trans hb', hout.le.trans (le_max_right _ _)⟩,
      fun he => hout.ne (by rw [← he]; rfl),
      Rect.holds_iff.2 ⟨⟨hl, hr⟩, ht.trans hb', le_rfl⟩, Or.inr (Or.inr (Or.inr rfl))⟩
  · have hcy : (g.center b).y = (g.center a).y := (center_y_eq_iff hside).2 hy
    have hcx : (g.center b).x < (g.center a).x := (center_x_lt_iff hside).2 (by omega)
    have hout : (g.center b).x < r.left := by rcases hb with h | h | h | h <;> linarith
    exact ⟨⟨⟨(min_le_right _ _).trans hout.le, hl.trans (le_max_left _ _)⟩,
        min_le_left _ _, le_max_left _ _⟩,
      fun he => hout.ne' (by rw [← he]; rfl),
      Rect.holds_iff.2 ⟨⟨le_rfl, hl.trans hr⟩, ht, hb'⟩, Or.inl rfl⟩

end Centers

/-! ### The line of a cut -/

section Cut

variable {g : AccessGrid Rat} {source target : Rect Rat} {path between : List Cell}
  {t : Trimmed Rat} {a b : Cell} {u : Point Rat}

/-- **The line of a cut** goes on, begins on the edge of the source, ends on the edge of
the target, and keeps to the line of the path. -/
structure Cut.Line (g : AccessGrid Rat) (source target : Rect Rat) (path : List Cell)
    (t : Trimmed Rat) : Prop where
  onward : Onward t.points
  start : source.OnEdge t.start
  stop : target.OnEdge t.stop
  onLine : ∀ u, OnLine t.points u → OnLine (path.map g.center) u

/-- **Where a cut crosses the edges**: on the step from `a`, before the first cell between, and on
the step to `b`, after the last one. -/
theorem Cut.crossings (h : Cut g source target path t a b between) (hside : 0 < g.cellSide)
    (hchain : path.IsChain Cell.Beside) :
    (∃ c rest, between = c :: rest ∧ a.Beside c ∧ OnSegment (g.center a) (g.center c) t.start ∧
      t.start ≠ g.center c ∧ source.OnEdge t.start) ∧
    ∃ init d, between = init ++ [d] ∧ b.Beside d ∧ OnSegment (g.center b) (g.center d) t.stop ∧
      t.stop ≠ g.center d ∧ target.OnEdge t.stop := by
  obtain ⟨⟨before, after, hparts⟩, ⟨c, hc, hac, hcc, hstart⟩, -, ⟨d, hd, hdd, hbd, hstop⟩⟩ := h
  obtain ⟨rest, hrest⟩ : ∃ rest, between = c :: rest := by
    cases between with
    | nil => simp at hc
    | cons e rest => exact ⟨rest, by simpa using hc⟩
  obtain ⟨init, hinit⟩ : ∃ init, between = init ++ [d] := List.getLast?_eq_some_iff.1 hd
  have hbeside := hchain.infix (show a :: between ++ [b] <:+: path from
    ⟨before, after, by rw [hparts]; simp⟩)
  have hab : a.Beside c := by
    rw [hrest] at hbeside
    exact (List.isChain_cons_cons.1 hbeside).1
  have hdb : d.Beside b := by
    rw [hinit] at hbeside
    have hlast : d ∈ (a :: (init ++ [d])).getLast? := by
      rw [← List.cons_append, List.getLast?_concat]
      rfl
    exact (List.isChain_append.1 hbeside).2.2 d hlast b rfl
  have hs := edgeCrossing_spec hab hac hcc hside
  have he := edgeCrossing_spec hdb.symm hbd hdd hside
  rw [← hstart] at hs
  rw [← edgeCrossing_back hdb.symm, ← hstop] at he
  exact ⟨⟨c, rest, hrest, hab, hs⟩, init, d, hinit, hdb.symm, he⟩

theorem Cut.line (h : Cut g source target path t a b between) (hside : 0 < g.cellSide)
    (hchain : path.IsChain Cell.Beside) (hnodup : path.Nodup) :
    Cut.Line g source target path t := by
  obtain ⟨⟨c, rest, hrest, -, hs₁, hs₂, hs₃⟩, init, d, hinit, -, he₁, he₂, he₃⟩ :=
    h.crossings hside hchain
  obtain ⟨before, after, hparts⟩ := h.parts
  -- the line through the centres, first cut at the source and then, read backwards, at the target
  have hfront : ∀ p, p :: between.map g.center ++ [g.center b] =
      p :: g.center c :: (rest.map g.center ++ [g.center b]) := by simp [hrest]
  have hback : ∀ p, (t.start :: between.map g.center ++ [p]).reverse =
      p :: g.center d :: ((init.map g.center).reverse ++ [t.start]) := by simp [hinit]
  have hcore : a :: between ++ [b] <:+: path := ⟨before, after, by rw [hparts]; simp⟩
  have hline : (a :: between ++ [b]).map g.center <:+: path.map g.center := hcore.map g.center
  have hmap : (a :: between ++ [b]).map g.center =
      g.center a :: between.map g.center ++ [g.center b] := by simp
  have hpoints : t.points = t.start :: between.map g.center ++ [t.stop] := by
    rw [Trimmed.points, h.interior]
  -- either half is the lemma on the first segment, used once from each end
  refine ⟨?_, hs₃, he₃, fun u hu => ?_⟩
  · have h₁ := (onward_centers hside hchain hnodup).part hline
    rw [hmap, hfront] at h₁
    have h₂ := h₁.trim_head hs₁ hs₂
    rw [← hfront] at h₂
    have h₃ := h₂.reverse
    rw [hback] at h₃
    have h₄ := (h₃.trim_head he₁ he₂).reverse
    rwa [← hback, List.reverse_reverse, ← hpoints] at h₄
  · rw [hpoints] at hu
    have h₁ := hu.reverse
    rw [hback] at h₁
    have h₂ := (h₁.trim_head he₁).reverse
    rw [← hback, List.reverse_reverse, hfront] at h₂
    have h₃ := h₂.trim_head hs₁
    rw [← hfront, ← hmap] at h₃
    exact h₃.mono hline

/-- The points of a line of a cut, its first two apart. -/
theorem Trimmed.points_eq_cons (t : Trimmed Rat) :
    ∃ q rest, t.points = t.start :: q :: rest ∧ (q :: rest).getLast? = some t.stop := by
  cases h : t.interior with
  | nil => exact ⟨t.stop, [], by rw [points, h]; rfl, rfl⟩
  | cons q rest =>
    exact ⟨q, rest ++ [t.stop], by rw [points, h]; rfl, by
      rw [← List.cons_append, List.getLast?_concat]⟩

/-- **What is drawn of a cut** turns at every point between its ends, which are those of
the cut, and covers no more of the plane. -/
theorem Cut.Line.drawn (h : Cut.Line g source target path t) :
    Turning (dedup (simplify t.points)) ∧ 2 ≤ (dedup (simplify t.points)).length ∧
      (dedup (simplify t.points)).head? = some t.start ∧
      (dedup (simplify t.points)).getLast? = some t.stop ∧
      ∀ u, OnLine (dedup (simplify t.points)) u → OnLine (path.map g.center) u := by
  obtain ⟨q, rest, hpoints, hlast⟩ := t.points_eq_cons
  have honward := h.onward
  have honLine := h.onLine
  rw [hpoints] at honward honLine ⊢
  obtain ⟨hturn, hlen, hhead, hend⟩ := turning_dedup_simplify honward
  exact ⟨hturn, hlen, hhead, hend.trans hlast, fun u hu =>
    honLine u (onLine_dedup_simplify honward hu)⟩

end Cut

end Schematic
