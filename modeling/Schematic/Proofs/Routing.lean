import Schematic.Proofs.Attempts
import Schematic.Proofs.Claiming
import Schematic.Proofs.Shortest

/-!
# Routed connectors

What a drawn connector is made of: the frames of its boxes, a shortest path between a
cell of the one and a cell of the other, and the path trimmed to the line between them.

* `SolvedGraph.Routed`: these facts about one connector.
* `SolvedGraph.routed_of_mem`: they hold of every connector that is drawn.
* `SolvedGraph.Routed.line`: its line before points are left out.
* `SolvedGraph.exists_outcome`: a connector is drawn wherever there is a way.
* `SolvedGraph.pinned`: a diagram whose frames are given.
-/

namespace Schematic.SolvedGraph

variable {s : SolvedGraph Rat} {settings : LayoutSettings Rat} {index : ℕ} {arrow : Arrow Rat}
  {r : Register} {c : Connector Rat} {source target : Rect Rat} {path : List Cell}
  {t : Trimmed Rat}

/-- **What a drawn connector is made of.** -/
structure Routed (s : SolvedGraph Rat) (settings : LayoutSettings Rat) (index : ℕ)
    (arrow : Arrow Rat) (c : Connector Rat) (source target : Rect Rat) (path : List Cell)
    (t : Trimmed Rat) : Prop where
  sourceFrame : s.frame? arrow.source = some source
  targetFrame : s.frame? arrow.target = some target
  start : c.ends.1 ∈ (s.grid settings index arrow.target).cellsIn source
  stop : c.ends.2 ∈ (s.grid settings index arrow.target).cellsIn target
  shortest : (s.grid settings index arrow.target).shortestPath c.ends.1 c.ends.2 = some path
  trimmed : trim (s.grid settings index arrow.target) path source target = some t
  points : c.points = dedup (simplify t.points)
  length : 2 ≤ c.points.length
  number : c.arrow = index

/-- The outcome of routing one connector. -/
def outcome (s : SolvedGraph Rat) (settings : LayoutSettings Rat) (index : ℕ) (arrow : Arrow Rat)
    (r : Register) : Option (Connector Rat) :=
  (s.routeArrow settings index arrow r).1.bind (·.connector? index arrow)

theorem routed_of_outcome (h : s.outcome settings index arrow r = some c) :
    ∃ source target path t, s.Routed settings index arrow c source target path t := by
  obtain ⟨a, ha, hc⟩ := Option.bind_eq_some_iff.1 h
  -- the frames are there, so the attempt has ends, and a line between them
  obtain ⟨source, target, hs, ht, rfl⟩ := exists_of_routeArrow ha
  obtain ⟨ends, points, hends, hline, hlen, rfl⟩ := connector?_eq_some_iff.1 hc
  dsimp only at hends hline
  rw [hends, Option.bind_some] at hline
  obtain ⟨path, t, hpath, htrim, rfl⟩ := line?_eq_some_iff.1 hline
  have hmem := claimEnds_mem hends
  exact ⟨source, target, path, t, hs, ht, candidates_subset.1 hmem.1, candidates_subset.2 hmem.2,
    hpath, htrim, rfl, hlen, rfl⟩

/-! ### The line of a connector -/

section Line

variable {g : AccessGrid Rat} {a b : Cell}

/-- A path between a cell of the source and a cell of the target joins the two. -/
theorem joins_of_shortestPath (hside : 0 < g.cellSide) (ha : a ∈ g.cellsIn source)
    (hb : b ∈ g.cellsIn target) (h : g.shortestPath a b = some path) :
    Joins g source target path := by
  have hshort := (AccessGrid.shortest_of_shortestPath h).2
  exact ⟨⟨a, hshort.head, holds_center hside ((mem_cellsIn hside).1 ha).2⟩,
    ⟨b, hshort.last, holds_center hside ((mem_cellsIn hside).1 hb).2⟩⟩

theorem beside_of_shortestPath (h : g.shortestPath a b = some path) : path.IsChain Cell.Beside := by
  refine (AccessGrid.shortest_of_shortestPath h).2.chain.imp fun x y hxy => ?_
  obtain ⟨d, -, hd, -⟩ := AccessGrid.mem_successors.1 hxy
  exact ⟨d, hd⟩

/-- **The line of a shortest path** between the edges of the two boxes. -/
theorem line_of_trim (hside : 0 < g.cellSide) (ha : a ∈ g.cellsIn source)
    (hb : b ∈ g.cellsIn target) (h : g.shortestPath a b = some path)
    (ht : trim g path source target = some t) : Cut.Line g source target path t := by
  obtain ⟨_, _, _, _, _, -, hcut, -, -⟩ := cut_of_trim (joins_of_shortestPath hside ha hb h) ht
  exact hcut.line hside (beside_of_shortestPath h) (AccessGrid.shortest_of_shortestPath h).2.nodup

end Line

theorem Routed.line (h : s.Routed settings index arrow c source target path t)
    (hside : 0 < settings.cellSide) :
    Cut.Line (s.grid settings index arrow.target) source target path t :=
  line_of_trim hside h.start h.stop h.shortest h.trimmed

/-- **A connector is drawn** if both boxes have cells, and between any two of them there is
a path that can be trimmed. -/
theorem exists_outcome (hside : 0 < settings.cellSide) (hs : s.frame? arrow.source = some source)
    (ht : s.frame? arrow.target = some target)
    (hsource : (s.grid settings index arrow.target).cellsIn source ≠ [])
    (htarget : (s.grid settings index arrow.target).cellsIn target ≠ [])
    (hway : ∀ a ∈ (s.grid settings index arrow.target).cellsIn source,
      ∀ b ∈ (s.grid settings index arrow.target).cellsIn target,
      ∃ path t, (s.grid settings index arrow.target).shortestPath a b = some path ∧
        trim (s.grid settings index arrow.target) path source target = some t)
    (r : Register) : ∃ c, s.outcome settings index arrow r = some c := by
  obtain ⟨ends, hends⟩ := exists_claimEnds (candidates_ne_nil hsource htarget) r
  have hmem := claimEnds_mem hends
  have hstart := candidates_subset.1 hmem.1
  have hstop := candidates_subset.2 hmem.2
  obtain ⟨path, t, hpath, htrim⟩ := hway _ hstart _ hstop
  have hline := line_of_trim hside hstart hstop hpath htrim
  have hlen := hline.drawn.2.1
  let points := dedup (simplify t.points)
  refine ⟨⟨index, points, arrow.heads points, ends, arrow.lineWidth⟩, ?_⟩
  rw [outcome, routeArrow_eq hs ht, Option.bind_some]
  refine connector?_eq_some_iff.2 ⟨ends, points, hends, ?_, hlen, rfl⟩
  dsimp only
  rw [hends, Option.bind_some]
  exact line?_eq_some_iff.2 ⟨path, t, hpath, htrim, rfl⟩

/-! ### All connectors of a diagram -/

/-- **A drawn connector** is what came of one of the connectors of the diagram. -/
theorem mem_routeAll (h : c ∈ s.routeAll settings) :
    ∃ arrow r, s.graph.arrows[c.arrow]? = some arrow ∧
      s.outcome settings c.arrow arrow r = some c := by
  obtain ⟨arrow, a, hget, ha⟩ := mem_connectors_iff.1 h
  obtain ⟨harrow, r, hr⟩ := routeFrom_getElem? hget
  refine ⟨arrow, r, harrow, ?_⟩
  rw [outcome, ← Nat.zero_add c.arrow, ← hr, Nat.zero_add]
  exact ha

theorem routed_of_mem (h : c ∈ s.routeAll settings) :
    ∃ arrow source target path t, s.graph.arrows[c.arrow]? = some arrow ∧
      s.Routed settings c.arrow arrow c source target path t := by
  obtain ⟨arrow, r, harrow, hout⟩ := mem_routeAll h
  obtain ⟨source, target, path, t, hrouted⟩ := routed_of_outcome hout
  exact ⟨arrow, source, target, path, t, harrow, hrouted⟩

/-! ### Diagrams with given frames -/

/-- Anchors whose variables follow each other. -/
def consecutiveAnchors (v : Variable) : Anchors :=
  ⟨v, v + 1, v + 2, v + 3, v + 4, v + 5, v + 6, v + 7⟩

/-- The values of the anchors of a frame. -/
def frameValues (r : Rect Rat) : List Rat :=
  [r.top, r.center.y, r.bottom, r.left, r.center.x, r.right, r.size.height, r.size.width]

/-- **A solved diagram** with a given canvas, boxes of given names and frames, and
connectors between them. -/
def pinned (canvas : Rect Rat) (boxes : List (String × Rect Rat)) (arrows : List (Arrow Rat)) :
    SolvedGraph Rat where
  graph :=
    { boxes := Std.TreeMap.ofList (boxes.zipIdx.map fun ((id, _), i) =>
        (id, DiagramBox.mk id id none (consecutiveAnchors (8 * i + 8))))
      arrows
      styles := .empty
      anchors := consecutiveAnchors 0
      table := .empty }
  solution := { values := frameValues canvas ++ boxes.flatMap fun (_, r) => frameValues r }

end Schematic.SolvedGraph
