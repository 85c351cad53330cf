import Schematic.Proofs.Avoidance
import Schematic.Proofs.Clearance
import Schematic.Proofs.Keyed

/-!
# Diagrams that can be routed

Where the boxes keep away from each other and from the edges of the canvas, a connector is
always drawn, whatever cells have been claimed before, and it keeps its margin to all other
boxes.

* `SolvedGraph.Separated`: how far the boxes have to keep away.
* `SolvedGraph.Separated.way`: then a way leads from every cell of the source to every cell
  of the target.
* `SolvedGraph.Separated.exists_trim`: and it leaves the source before it enters the target.
* `SolvedGraph.separated_drawn`: so the connector is drawn, and avoids the other boxes.
-/

namespace Schematic.SolvedGraph

variable {s : SolvedGraph Rat} {settings : LayoutSettings Rat} {index : ℕ} {arrow : Arrow Rat}
  {source target r : Rect Rat} {a b : Cell} {path : List Cell} {id : String}

/-- **Boxes that keep away** from each other: for a connector with its margin, the other
boxes leave two cells free between each other and the canvas, and one to the target. -/
structure Separated (s : SolvedGraph Rat) (settings : LayoutSettings Rat) (index : ℕ)
    (arrow : Arrow Rat) (source target : Rect Rat) : Prop where
  left : s.canvas.left = 0
  top : s.canvas.top = 0
  sourceCell : ∃ c : Cell, source.covers (c.square settings.cellSide) = true
  targetCell : ∃ c : Cell, target.covers (c.square settings.cellSide) = true
  targetInside : s.canvas.covers target = true
  inner : ∀ id r, s.frame? id = some r → id ≠ arrow.target →
    (s.canvas.inset (2 * settings.cellSide)).covers
      (r.inset (-settings.routingMargin index)) = true
  apart : ∀ id id' r r', s.frame? id = some r → s.frame? id' = some r' → id ≠ id' →
    id ≠ arrow.target → id' ≠ arrow.target →
    Rect.Apart (2 * settings.cellSide) (r.inset (-settings.routingMargin index))
      (r'.inset (-settings.routingMargin index))
  targetApart : ∀ id r, s.frame? id = some r → id ≠ arrow.target →
    Rect.Apart settings.cellSide target (r.inset (-settings.routingMargin index))

/-- A step out of the source does not lead into a target that is more than a cell away. -/
theorem not_holds_of_apart {g : AccessGrid Rat} {margin : Rat} (hside : 0 < g.cellSide)
    (hmargin : 0 ≤ margin) (hapart : Rect.Apart g.cellSide target (source.inset (-margin)))
    (hab : a.Beside b) (ha : source.holds (g.center a) = true) :
    target.holds (g.center b) = false := by
  rw [Bool.eq_false_iff]
  intro hb
  rw [Rect.holds_iff, AccessGrid.center_x, AccessGrid.center_y] at ha hb
  obtain ⟨⟨hl, hr⟩, ht, hd⟩ := ha
  obtain ⟨⟨hl', hr'⟩, ht', hd'⟩ := hb
  simp only [Rect.Apart, Rect.left_inset, Rect.right_inset, Rect.top_inset, Rect.bottom_inset]
    at hapart
  rcases hab.coordinates with ⟨hx, hy | hy⟩ | ⟨hy, hx | hx⟩ <;> rw [hx] at hl' hr' <;>
    rw [hy] at ht' hd' <;> rcases hapart with (h | h) | h | h <;> linarith

/-- What is routed: a connector between two boxes of a diagram, with positive cells. -/
structure Routable (s : SolvedGraph Rat) (settings : LayoutSettings Rat) (index : ℕ)
    (arrow : Arrow Rat) (source target : Rect Rat) : Prop where
  keyed : s.graph.Keyed
  side : 0 < settings.cellSide
  margin : 0 ≤ settings.routingMargin index
  ends : arrow.source ≠ arrow.target
  sourceFrame : s.frame? arrow.source = some source
  targetFrame : s.frame? arrow.target = some target

namespace Separated

variable (h : s.Separated settings index arrow source target)
  (hr : s.Routable settings index arrow source target)

include h hr

theorem spaced : Spaced s.canvas (s.obstacles arrow.target) (settings.routingMargin index)
    settings.cellSide := by
  refine ⟨hr.side, h.left, h.top, fun r hmem => ?_, fun r hmem r' hmem' hne => ?_⟩
  · obtain ⟨id, hid, hframe⟩ := (mem_obstacles_iff hr.keyed).1 hmem
    exact h.inner id r hframe hid
  · obtain ⟨id, hid, hframe⟩ := (mem_obstacles_iff hr.keyed).1 hmem
    obtain ⟨id', hid', hframe'⟩ := (mem_obstacles_iff hr.keyed).1 hmem'
    refine h.apart id id' r r' hframe hframe' (fun heq => hne ?_) hid hid'
    subst heq
    exact Option.some.inj (hframe.symm.trans hframe')

omit h in
theorem source_mem : source ∈ s.obstacles arrow.target :=
  (mem_obstacles_iff hr.keyed).2 ⟨arrow.source, hr.ends, hr.sourceFrame⟩

theorem source_ne_nil : (s.grid settings index arrow.target).cellsIn source ≠ [] := by
  obtain ⟨c, hc⟩ := h.sourceCell
  have hside := hr.side
  have hin : s.canvas.covers (c.square settings.cellSide) = true :=
    Rect.covers_trans (Rect.covers_of_inset (by linarith) (h.inner _ _ hr.sourceFrame hr.ends))
      (Rect.covers_trans (source.covers_grown hr.margin) hc)
  exact List.ne_nil_of_mem ((mem_cellsIn hside).2 ⟨contains_of_covers hside hin, hc⟩)

theorem target_ne_nil : (s.grid settings index arrow.target).cellsIn target ≠ [] := by
  obtain ⟨c, hc⟩ := h.targetCell
  have hin := Rect.covers_trans h.targetInside hc
  exact List.ne_nil_of_mem ((mem_cellsIn hr.side).2 ⟨contains_of_covers hr.side hin, hc⟩)

/-- Cells of the target are clear. -/
theorem clear_target (hb : target.covers (b.square settings.cellSide) = true) :
    Clear (s.obstacles arrow.target) (settings.routingMargin index) settings.cellSide b := by
  intro r hmem
  obtain ⟨id, hid, hframe⟩ := (mem_obstacles_iff hr.keyed).1 hmem
  exact (h.targetApart id r hframe hid).not_meets
    (Rect.covers_trans (target.covers_grown hr.side.le) hb)

/-- **A way** leads from every cell of the source to every cell of the target: out of the
source, over the first cell of the grid. -/
theorem way (ha : a ∈ (s.grid settings index arrow.target).cellsIn source)
    (hb : b ∈ (s.grid settings index arrow.target).cellsIn target) :
    (s.grid settings index arrow.target).Way a b := by
  have hspaced := h.spaced hr
  rw [mem_cellsIn hr.side] at ha hb
  -- from both ends the way goes by a clear cell to the corner of the grid
  obtain ⟨c, hc, hclear, hout⟩ := hspaced.exists_clear_way (source_mem hr)
    (Rect.covers_trans (source.covers_grown hr.margin) ha.2)
  exact (hout.trans (hspaced.home hclear hc).1).trans (hspaced.home (h.clear_target hr hb.2) hb.1).2

/-- Every path from the source to the target can be trimmed: its first cell outside the
source is outside the target as well. -/
theorem exists_trim (ha : a ∈ (s.grid settings index arrow.target).cellsIn source)
    (hb : b ∈ (s.grid settings index arrow.target).cellsIn target)
    (hpath : (s.grid settings index arrow.target).shortestPath a b = some path) :
    ∃ t, trim (s.grid settings index arrow.target) path source target = some t := by
  have hjoin := joins_of_shortestPath hr.side ha hb hpath
  have hapart := h.targetApart _ _ hr.sourceFrame hr.ends
  cases hfind : path.findIdx? fun c =>
      !source.holds ((s.grid settings index arrow.target).center c) with
  | none =>
    -- the last cell is in the target, so it cannot be in the source as well
    obtain ⟨c, hc, hin⟩ := hjoin.last
    have hsource := List.findIdx?_eq_none_iff.1 hfind c (List.mem_of_getLast? hc)
    rw [Bool.not_eq_false'] at hsource
    have hmeets := Rect.meets_of_holds (Rect.holds_grown hsource hr.margin) hin
    rw [hapart.not_meets (target.covers_grown hr.side.le)] at hmeets
    exact absurd hmeets (by simp)
  | some k =>
    obtain ⟨i, rfl⟩ := hjoin.leave_pos hfind
    obtain ⟨hlt, hout, hin⟩ := List.findIdx?_eq_some_iff_getElem.1 hfind
    have hstep : path[i].Beside path[i + 1] :=
      List.isChain_iff_getElem.1 (beside_of_shortestPath hpath) i hlt
    have htarget := not_holds_of_apart hr.side hr.margin hapart hstep (by simpa using hin i (by omega))
    exact Schematic.exists_trim hjoin le_rfl ⟨_, List.getElem?_eq_getElem hlt, by simpa using hout⟩
      ⟨_, List.getElem?_eq_getElem hlt, htarget⟩

theorem exists_path (ha : a ∈ (s.grid settings index arrow.target).cellsIn source)
    (hb : b ∈ (s.grid settings index arrow.target).cellsIn target) :
    ∃ path t, (s.grid settings index arrow.target).shortestPath a b = some path ∧
      trim (s.grid settings index arrow.target) path source target = some t := by
  obtain ⟨n, hwalk⟩ := (h.way hr ha hb).walk
  obtain ⟨path, hpath⟩ := AccessGrid.exists_shortestPath ((mem_cellsIn hr.side).1 ha).1 hwalk
  obtain ⟨t, ht⟩ := h.exists_trim hr ha hb hpath
  exact ⟨path, t, hpath, ht⟩

/-- The source is the only box that is reached through grown frames that touch, and it
exposes no other box. -/
theorem not_exposed (hframe : s.frame? id = some r) (hsource : id ≠ arrow.source)
    (htarget : id ≠ arrow.target) :
    ¬Exposed (settings.routingMargin index) settings.cellSide (s.obstacles arrow.target)
      source r := by
  have hside := hr.side
  have hspaced := h.spaced hr
  rintro ⟨o, ho, hmeets⟩
  -- grown frames keep apart, so chains of touching ones end at the source
  obtain rfl : o = source := by
    refine cluster_eq_source (fun r' hr' htouch => ?_) ho
    by_contra hne
    have hapart := hspaced.apart _ (source_mem hr) _ hr' (Ne.symm hne)
    rw [Rect.meets_comm, hapart.not_meets (Rect.covers_grown _ (by linarith))] at htouch
    exact absurd htouch (by simp)
  have hapart := h.apart _ _ _ _ hr.sourceFrame hframe (Ne.symm hsource) hr.ends htarget
  have hnear := ((o.inset (-settings.routingMargin index)).inset (-settings.cellSide)).covers_grown
    hside.le
  rw [Rect.inset_inset _ (-settings.cellSide), ← neg_add, ← two_mul] at hnear
  rw [Rect.meets_comm, hapart.not_meets hnear] at hmeets
  exact absurd hmeets (by simp)

end Separated

/-- **A connector between boxes that keep away from each other** is drawn whatever cells have
been claimed before, and it keeps its margin to all boxes but its own. -/
theorem separated_drawn (hr : s.Routable settings index arrow source target)
    (h : s.Separated settings index arrow source target) (register : Register) :
    ∃ c, s.outcome settings index arrow register = some c ∧
      ∀ u, OnLine c.points u → ∀ id r, s.frame? id = some r → id ≠ arrow.source →
        id ≠ arrow.target → (r.inset (-settings.routingMargin index)).holds u = false := by
  obtain ⟨c, hc⟩ := exists_outcome hr.side hr.sourceFrame hr.targetFrame
    (h.source_ne_nil hr) (h.target_ne_nil hr) (fun a ha b hb => h.exists_path hr ha hb) register
  refine ⟨c, hc, fun u hu id r hframe hsource htarget => ?_⟩
  obtain ⟨source', target', path, t, hrouted⟩ := routed_of_outcome hc
  obtain rfl : source = source' :=
    Option.some.inj (hr.sourceFrame.symm.trans hrouted.sourceFrame)
  exact hrouted.avoids hr.side hr.margin ((mem_obstacles_iff hr.keyed).2 ⟨id, htarget, hframe⟩)
    (h.not_exposed hr hframe hsource htarget) hu

/-- Three boxes with room around each, and a connector between the outer two. -/
def spread : SolvedGraph Rat :=
  pinned (.of 0 0 120 90) [("a", .of 30 40 10 10), ("b", .of 70 30 10 30), ("c", .of 100 40 10 10)]
    [.between "a" "c"]

theorem spread_drawn :
    ∃ c, spread.outcome ⟨0, 10, 4⟩ 0 (.between "a" "c") .empty = some c ∧
      ∀ u, OnLine c.points u → ((Rect.of 70 30 10 30).inset
        (-LayoutSettings.routingMargin ⟨0, 10, 4⟩ 0)).holds u = false := by
  have hkeyed : spread.graph.Keyed := Graph.keyed_iff.2 (by decide +kernel)
  have hr : spread.Routable ⟨0, 10, 4⟩ 0 (.between "a" "c") (.of 30 40 10 10) (.of 100 40 10 10) :=
    ⟨hkeyed, by decide, by decide +kernel, by decide, by decide +kernel, by decide +kernel⟩
  have hboxes : spread.boxFrames.map (fun b => (b.1.id, b.2)) =
      [("a", .of 30 40 10 10), ("b", .of 70 30 10 30), ("c", .of 100 40 10 10)] := by
    decide +kernel
  have hframes : ∀ {id r}, spread.frame? id = some r → (id = "a" ∧ r = .of 30 40 10 10) ∨
      (id = "b" ∧ r = .of 70 30 10 30) ∨ (id = "c" ∧ r = .of 100 40 10 10) := by
    intro id r h
    obtain ⟨b, hb, rfl⟩ := (frame?_eq_some_iff hkeyed).1 h
    have hmem : (b.id, r) ∈ spread.boxFrames.map fun b => (b.1.id, b.2) :=
      List.mem_map_of_mem (f := fun b => (b.1.id, b.2)) hb
    simpa [hboxes] using hmem
  have hsep : spread.Separated ⟨0, 10, 4⟩ 0 (.between "a" "c") (.of 30 40 10 10)
      (.of 100 40 10 10) := by
    refine ⟨by decide +kernel, by decide +kernel, ⟨⟨3, 4⟩, by decide +kernel⟩,
      ⟨⟨10, 4⟩, by decide +kernel⟩, by decide +kernel, ?_, ?_, ?_⟩
    · intro id r h hid
      rcases hframes h with ⟨rfl, rfl⟩ | ⟨rfl, rfl⟩ | ⟨rfl, rfl⟩
      · decide +kernel
      · decide +kernel
      · exact absurd rfl hid
    · intro id id' r r' h h' hne hid hid'
      rcases hframes h with ⟨rfl, rfl⟩ | ⟨rfl, rfl⟩ | ⟨rfl, rfl⟩ <;>
        rcases hframes h' with ⟨rfl, rfl⟩ | ⟨rfl, rfl⟩ | ⟨rfl, rfl⟩ <;>
        first | exact absurd rfl hne | exact absurd rfl hid | exact absurd rfl hid' | decide +kernel
    · intro id r h hid
      rcases hframes h with ⟨rfl, rfl⟩ | ⟨rfl, rfl⟩ | ⟨rfl, rfl⟩
      · decide +kernel
      · decide +kernel
      · exact absurd rfl hid
  obtain ⟨c, hc, havoids⟩ := separated_drawn hr hsep .empty
  exact ⟨c, hc, fun u hu => havoids u hu "b" _ (by decide +kernel) (by decide) (by decide)⟩

end Schematic.SolvedGraph
