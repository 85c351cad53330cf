import Schematic.Proofs.Routing
import Schematic.Proofs.Stepping

/-!
# Avoiding boxes

A route may leave a cell within a grown obstacle towards the edges of the box that are
nearest, wherever that leads to. So it stays clear of a box as long as no chain of grown
obstacles that touch each other leads from the source to it, but not beyond that.

* `Cluster`: the boxes that such chains lead to.
* `Exposed`: the boxes that lie within a cell of one of those.
* `Guarded`, `guarded_step`, `guarded_path`: a path gets into grown obstacles of the cluster
  only, and meets only those that are exposed.
* `SolvedGraph.routeAll_avoids`: connectors avoid all other boxes.
-/

namespace Schematic

variable {margin side : Rat} {frames : List (Rect Rat)} {source r r' : Rect Rat} {a b c : Cell}
  {u : Point Rat}

/-- **The boxes that are reached from a source** through grown frames that touch. -/
inductive Cluster (margin : Rat) (frames : List (Rect Rat)) (source : Rect Rat) : Rect Rat → Prop
  | source : Cluster margin frames source source
  | touch {r r' : Rect Rat} : Cluster margin frames source r → r' ∈ frames →
      (r.inset (-margin)).meets (r'.inset (-margin)) = true → Cluster margin frames source r'

/-- A box lies within a cell of the boxes that are reached. -/
def Exposed (margin side : Rat) (frames : List (Rect Rat)) (source r : Rect Rat) : Prop :=
  ∃ o, Cluster margin frames source o ∧
    ((o.inset (-margin)).inset (-side)).meets (r.inset (-margin)) = true

/-- **Where a path may be**: within the grown frames of the cluster, and next to those of
exposed boxes. -/
structure Guarded (margin side : Rat) (frames : List (Rect Rat)) (source : Rect Rat) (c : Cell) :
    Prop where
  covered : ∀ r ∈ frames, (r.inset (-margin)).covers (c.square side) = true →
    Cluster margin frames source r
  met : ∀ r ∈ frames, (r.inset (-margin)).meets (c.square side) = true →
    Exposed margin side frames source r

/-- The source is all that is reached if its grown frame touches no other one. -/
theorem cluster_eq_source
    (h : ∀ r ∈ frames, (source.inset (-margin)).meets (r.inset (-margin)) = true → r = source)
    (hr : Cluster margin frames source r) : r = source := by
  induction hr with
  | source => rfl
  | touch _ hmem hmeets ih =>
    subst ih
    exact h _ hmem hmeets

/-- Next to a cell within the cluster a path is where it may be. -/
theorem guarded_of_covers (ho : Cluster margin frames source r)
    (hb : ((r.inset (-margin)).inset (-side)).covers (b.square side) = true)
    (htouch : (r.inset (-margin)).meets (b.square side) = true) :
    Guarded margin side frames source b := by
  -- a frame that covers the cell touches that of `r`, so the chain goes on to it
  refine ⟨fun r' hr' hcover => ?_, fun r' hr' hmeet => ⟨r, ho, Rect.meets_of_covers hb hmeet⟩⟩
  exact ho.touch hr' (Rect.meets_comm.trans (Rect.meets_of_covers hcover htouch))

/-- A path begins where it may be. -/
theorem guarded_start (hside : 0 < side) (hmargin : 0 ≤ margin)
    (h : source.covers (c.square side) = true) : Guarded margin side frames source c := by
  have hgrown := Rect.covers_trans (source.covers_grown hmargin) h
  exact guarded_of_covers .source (Rect.covers_trans (Rect.covers_grown _ hside.le) hgrown)
    (Rect.meets_square_of_covers hside hgrown)

/-- **A step** leads from where a path may be to where it may be. -/
theorem guarded_step {canvas : Rect Rat} (hside : 0 < side)
    (hstep : b ∈ (AccessGrid.ofObstacles canvas frames margin side).successors a)
    (h : Guarded margin side frames source a) : Guarded margin side frames source b := by
  have hbeside := (AccessGrid.mem_successors_ofObstacles.1 hstep).2.2.1
  -- out of a covered cell a step may lead anywhere, but no further than one cell
  rcases AccessGrid.step_covered_or_clear hstep with ⟨r, hr, hcover⟩ | hclear
  · exact guarded_of_covers (h.covered r hr hcover) (hbeside.covers hside hcover)
      (Rect.meets_of_covers hcover (hbeside.symm.meets hside))
  · have hnot : ∀ r ∈ frames, (r.inset (-margin)).meets (b.square side) ≠ true := fun r hr =>
      Bool.eq_false_iff.1 (hclear r hr)
    refine ⟨fun r hr hcover => ?_, fun r hr hmeet => absurd hmeet (hnot r hr)⟩
    exact absurd (Rect.meets_square_of_covers hside hcover) (hnot r hr)

/-- **A whole path** keeps to where it may be. -/
theorem guarded_path {canvas : Rect Rat} {path : List Cell} {start goal : Cell} (hside : 0 < side)
    (hmargin : 0 ≤ margin)
    (h : (AccessGrid.ofObstacles canvas frames margin side).Shortest start goal path)
    (hstart : source.covers (start.square side) = true) :
    ∀ c ∈ path, Guarded margin side frames source c := by
  refine h.chain.induction _ path (fun a b hab ha => guarded_step hside hab ha) fun hne => ?_
  obtain rfl : path.head hne = start := by
    have := h.head
    rw [List.head?_eq_some_head hne] at this
    simpa using this
  exact guarded_start hside hmargin hstart

/-! ### The line of a path -/

/-- The segment from a centre to the one below or to the right lies within both squares. -/
theorem holds_square_of_onSegment {g : AccessGrid Rat} (hside : 0 < g.cellSide)
    (h : (b.x = a.x ∧ b.y = a.y + 1) ∨ (b.y = a.y ∧ b.x = a.x + 1))
    (hu : OnSegment (g.center a) (g.center b) u) :
    (a.square g.cellSide).holds u = true ∨ (b.square g.cellSide).holds u = true := by
  obtain ⟨⟨hx, hx'⟩, hy, hy'⟩ := hu
  simp only [AccessGrid.center_x, AccessGrid.center_y] at hx hx' hy hy'
  simp only [Rect.holds_iff, Cell.left_square, Cell.right_square, Cell.top_square,
    Cell.bottom_square]
  rcases h with ⟨h₁, h₂⟩ | ⟨h₁, h₂⟩
  · rw [h₁, min_self] at hx
    rw [h₁, max_self] at hx'
    rw [h₂, min_eq_left (by push_cast; nlinarith)] at hy
    rw [h₂, max_eq_right (by push_cast; nlinarith)] at hy'
    rw [h₁, h₂]
    push_cast at hy' ⊢
    rcases le_total u.y ((a.y + 1) * g.cellSide) with hle | hle
    · exact Or.inl ⟨⟨by linarith, by linarith⟩, by linarith, hle⟩
    · exact Or.inr ⟨⟨by linarith, by linarith⟩, hle, by linarith⟩
  · rw [h₁, min_self] at hy
    rw [h₁, max_self] at hy'
    rw [h₂, min_eq_left (by push_cast; nlinarith)] at hx
    rw [h₂, max_eq_right (by push_cast; nlinarith)] at hx'
    rw [h₁, h₂]
    push_cast at hx' ⊢
    rcases le_total u.x ((a.x + 1) * g.cellSide) with hle | hle
    · exact Or.inl ⟨⟨by linarith, hle⟩, by linarith, by linarith⟩
    · exact Or.inr ⟨⟨hle, by linarith⟩, by linarith, by linarith⟩

/-- A line through the centres of a path lies within the squares of its cells. -/
theorem exists_square_of_onLine {g : AccessGrid Rat} {path : List Cell} (hside : 0 < g.cellSide)
    (hchain : path.IsChain Cell.Beside) (h : OnLine (path.map g.center) u) :
    ∃ c ∈ path, (c.square g.cellSide).holds u = true := by
  obtain ⟨p, q, hi, hu⟩ := h
  obtain ⟨cells, hcells, hmap⟩ := List.infix_map_iff.1 hi
  obtain ⟨a, b, rfl⟩ := List.length_eq_two.1 (by simpa using (congrArg List.length hmap).symm)
  obtain ⟨rfl, rfl⟩ : p = g.center a ∧ q = g.center b := by simpa using hmap
  have hab : a.Beside b := by simpa using hchain.infix hcells
  have ha : a ∈ path := hcells.subset (by simp)
  have hb : b ∈ path := hcells.subset (by simp)
  have hcells : (a.square g.cellSide).holds u = true ∨ (b.square g.cellSide).holds u = true := by
    rcases Cell.beside_iff.1 hab with ⟨hx, hy | hy⟩ | ⟨hy, hx | hx⟩
    · exact holds_square_of_onSegment hside (Or.inl ⟨hx.symm, hy.symm⟩) hu
    · exact (holds_square_of_onSegment hside (Or.inl ⟨hx, hy.symm⟩) hu.symm).symm
    · exact holds_square_of_onSegment hside (Or.inr ⟨hy.symm, hx.symm⟩) hu
    · exact (holds_square_of_onSegment hside (Or.inr ⟨hy, hx.symm⟩) hu.symm).symm
  rcases hcells with h | h
  · exact ⟨a, ha, h⟩
  · exact ⟨b, hb, h⟩

/-! ### Connectors -/

/-- The inside of a rectangle, without its edges. -/
def Rect.Inside (r : Rect Rat) (p : Point Rat) : Prop :=
  (r.left < p.x ∧ p.x < r.right) ∧ r.top < p.y ∧ p.y < r.bottom

instance (r : Rect Rat) (p : Point Rat) : Decidable (r.Inside p) :=
  inferInstanceAs (Decidable ((r.left < p.x ∧ p.x < r.right) ∧ r.top < p.y ∧ p.y < r.bottom))

theorem Rect.Inside.holds (h : r.Inside u) : r.holds u = true :=
  Rect.holds_iff.2 ⟨⟨h.1.1.le, h.1.2.le⟩, h.2.1.le, h.2.2.le⟩

namespace SolvedGraph

variable {s : SolvedGraph Rat} {settings : LayoutSettings Rat} {index : ℕ} {arrow : Arrow Rat}
  {c : Connector Rat} {target : Rect Rat} {path : List Cell} {t : Trimmed Rat}

/-- **A connector keeps its margin** to all boxes that are not exposed. -/
theorem Routed.avoids (h : s.Routed settings index arrow c source target path t)
    (hside : 0 < settings.cellSide) (hmargin : 0 ≤ settings.routingMargin index)
    (hr : r ∈ s.obstacles arrow.target)
    (hexposed : ¬Exposed (settings.routingMargin index) settings.cellSide
      (s.obstacles arrow.target) source r) (hu : OnLine c.points u) :
    (r.inset (-settings.routingMargin index)).holds u = false := by
  by_contra hholds
  rw [Bool.not_eq_false] at hholds
  have hshort := (AccessGrid.shortest_of_shortestPath h.shortest).2
  rw [h.points] at hu
  obtain ⟨c, hc, hsquare⟩ := exists_square_of_onLine hside (beside_of_shortestPath h.shortest)
    ((h.line hside).drawn.2.2.2.2 u hu)
  have hguarded := guarded_path hside hmargin hshort ((mem_cellsIn hside).1 h.start).2 c hc
  exact hexposed (hguarded.met r hr (Rect.meets_of_holds hholds hsquare))

theorem mem_obstacles {b : DiagramBox} {f : Rect Rat} (hb : (b, f) ∈ s.boxFrames)
    {target : String} (hne : b.id ≠ target) : f ∈ s.obstacles target :=
  List.mem_map.2 ⟨(b, f), List.mem_filter.2 ⟨hb, by simpa using hne⟩, rfl⟩

theorem routingMargin_nonneg (h : 0 ≤ settings.routingMarginStep) (index : ℕ) :
    0 ≤ settings.routingMargin index :=
  mul_nonneg h (Nat.cast_nonneg _)

/-- **Connectors avoid the other boxes** that no chain of grown frames leads to from their
source: they keep their margin to them, so they do not get inside. -/
theorem routeAll_avoids (s : SolvedGraph Rat) (settings : LayoutSettings Rat)
    (hside : 0 < settings.cellSide) (hstep : 0 ≤ settings.routingMarginStep) :
    ∀ c ∈ s.routeAll settings, ∃ arrow source, s.graph.arrows[c.arrow]? = some arrow ∧
      s.frame? arrow.source = some source ∧
        ∀ b f, (b, f) ∈ s.boxFrames → b.id ≠ arrow.target →
          ¬Exposed (settings.routingMargin c.arrow) settings.cellSide
            (s.obstacles arrow.target) source f →
          ∀ u, OnLine c.points u →
            (f.inset (-settings.routingMargin c.arrow)).holds u = false ∧ ¬f.Inside u := by
  intro c hc
  obtain ⟨arrow, source, target, path, t, harrow, hrouted⟩ := routed_of_mem hc
  refine ⟨arrow, source, harrow, hrouted.sourceFrame, fun b f hb hne hexposed u hu => ?_⟩
  have hmargin := routingMargin_nonneg hstep c.arrow
  have hout := hrouted.avoids hside hmargin (mem_obstacles hb hne) hexposed hu
  refine ⟨hout, fun hin => ?_⟩
  rw [Rect.holds_grown hin.holds hmargin] at hout
  exact absurd hout (by simp)

/-- Two boxes with a third one between them, and a connector between the two. -/
def detour : SolvedGraph Rat :=
  pinned (.of 0 0 110 70) [("a", .of 10 30 10 10), ("b", .of 50 20 10 30), ("c", .of 90 30 10 10)]
    [.between "a" "c"]

set_option maxRecDepth 100000 in
theorem detour_avoids : (detour.routeAll ⟨0, 10, 4⟩).map (·.arrow) = [0] ∧
    ∀ c ∈ detour.routeAll ⟨0, 10, 4⟩, ∀ u, OnLine c.points u → ¬(Rect.of 50 20 10 30).Inside u := by
  have hdrawn : (detour.routeAll ⟨0, 10, 4⟩).map (·.arrow) = [0] := by decide +kernel
  refine ⟨hdrawn, fun c hc u hu => ?_⟩
  have harrow : c.arrow = 0 := by
    have := List.mem_map_of_mem (f := (·.arrow)) hc
    simpa [hdrawn] using this
  obtain ⟨arrow, source, h, hsource, havoids⟩ :=
    routeAll_avoids detour ⟨0, 10, 4⟩ (by decide) (by decide) c hc
  rw [harrow] at h havoids
  obtain rfl : Arrow.between "a" "c" = arrow := by simpa [detour, pinned] using h
  obtain rfl : Rect.of 10 30 10 10 = source := by
    have hframe : detour.frame? "a" = some (.of 10 30 10 10) := by decide +kernel
    exact Option.some.inj (hframe.symm.trans hsource)
  have hobstacles : detour.obstacles "c" = [.of 10 30 10 10, .of 50 20 10 30] := by decide +kernel
  have hbox : (⟨"b", "b", none, consecutiveAnchors 16⟩, .of 50 20 10 30) ∈ detour.boxFrames :=
    List.mem_of_getElem? (i := 1) (by decide +kernel)
  refine (havoids _ _ hbox (by decide) ?_ u hu).2
  rintro ⟨o, ho, hmeets⟩
  change Cluster _ (detour.obstacles "c") _ o at ho
  rw [hobstacles] at ho
  obtain rfl := cluster_eq_source (by decide +kernel) ho
  exact absurd hmeets (by decide +kernel)

/-- Three boxes in a row, each as high as the canvas, and a connector between the outer two. -/
def wall : SolvedGraph Rat :=
  pinned (.of 0 0 90 30) [("a", .of 10 0 10 30), ("b", .of 40 0 10 30), ("c", .of 70 0 10 30)]
    [.between "a" "c"]

set_option maxRecDepth 100000 in
/-- **Boxes are not avoided** where the margin is larger than the gaps. The frames lie within
the canvas and are disjoint, yet the connector runs through the box in the middle. -/
theorem wall_crossed :
    (wall.boxFrames.map fun b => (b.1.id, b.2)) =
        [("a", .of 10 0 10 30), ("b", .of 40 0 10 30), ("c", .of 70 0 10 30)] ∧
      wall.canvas = .of 0 0 90 30 ∧
        ∃ c ∈ wall.routeAll ⟨0, 10, 40⟩, ∃ u, OnLine c.points u ∧ (Rect.of 40 0 10 30).Inside u := by
  have hpoints : (wall.routeAll ⟨0, 10, 40⟩).map (·.points) = [[⟨20, 5⟩, ⟨70, 5⟩]] := by
    decide +kernel
  obtain ⟨c, hc, hline⟩ : ∃ c ∈ wall.routeAll ⟨0, 10, 40⟩, c.points = [⟨20, 5⟩, ⟨70, 5⟩] :=
    List.mem_map.1 (by rw [hpoints]; exact List.mem_singleton_self _)
  refine ⟨by decide +kernel, by decide +kernel, c, hc, ⟨45, 5⟩, ?_, by decide +kernel⟩
  rw [hline]
  exact ⟨⟨20, 5⟩, ⟨70, 5⟩, List.infix_refl _, by decide +kernel, by decide +kernel⟩

end SolvedGraph

end Schematic
