import Schematic.Proofs.Routing

/-!
# Orthogonal connectors

Whatever the boxes and the settings, every connector that is drawn is a line from the edge
of its source to the edge of its target that turns at every point between its ends.

* `SolvedGraph.Routed.orthogonal`: this of one connector.
* `SolvedGraph.routeAll_orthogonal`: this of all connectors of a diagram, in order.
-/

namespace Schematic.SolvedGraph

variable {s : SolvedGraph Rat} {settings : LayoutSettings Rat} {index : ℕ} {arrow : Arrow Rat}
  {c : Connector Rat} {source target : Rect Rat} {path : List Cell} {t : Trimmed Rat}

/-- **A line from edge to edge**: at least two points, a turn at every point between the
ends, the first point on the edge of the source and the last one on that of the target. -/
structure EdgeToEdge (source target : Rect Rat) (points : List (Point Rat)) : Prop where
  length : 2 ≤ points.length
  turning : Turning points
  start : ∃ p, points.head? = some p ∧ source.OnEdge p
  stop : ∃ p, points.getLast? = some p ∧ target.OnEdge p

theorem Routed.orthogonal (h : s.Routed settings index arrow c source target path t)
    (hside : 0 < settings.cellSide) : EdgeToEdge source target c.points := by
  have hline := h.line hside
  obtain ⟨hturn, hlen, hhead, hlast, -⟩ := hline.drawn
  rw [h.points]
  exact ⟨hlen, hturn, ⟨t.start, hhead, hline.start⟩, ⟨t.stop, hlast, hline.stop⟩⟩

/-- **Connectors are orthogonal.** They come in the order of their declarations, and each
is a line from the edge of its source to the edge of its target. -/
theorem routeAll_orthogonal (s : SolvedGraph Rat) (settings : LayoutSettings Rat)
    (hside : 0 < settings.cellSide) :
    ((s.routeAll settings).map (·.arrow)).Pairwise (· < ·) ∧
      ∀ c ∈ s.routeAll settings, ∃ arrow source target,
        s.graph.arrows[c.arrow]? = some arrow ∧ s.frame? arrow.source = some source ∧
          s.frame? arrow.target = some target ∧ EdgeToEdge source target c.points := by
  refine ⟨connectors_pairwise _, fun c hc => ?_⟩
  obtain ⟨arrow, source, target, path, t, harrow, hrouted⟩ := routed_of_mem hc
  exact ⟨arrow, source, target, harrow, hrouted.sourceFrame, hrouted.targetFrame,
    hrouted.orthogonal hside⟩

/-- Two boxes of one row, and a third one below the first. -/
def threeBoxes : SolvedGraph Rat :=
  pinned (.of 0 0 100 100) [("a", .of 20 20 20 20), ("b", .of 60 20 20 20), ("c", .of 60 60 20 20)]
    [.between "a" "b", .between "a" "c", .between "b" "b"]

set_option maxRecDepth 100000 in
theorem threeBoxes_orthogonal : (threeBoxes.routeAll ⟨0, 10, 4⟩).map (·.points.length) = [2, 3] ∧
    ∀ c ∈ threeBoxes.routeAll ⟨0, 10, 4⟩, ∃ arrow source target,
      threeBoxes.graph.arrows[c.arrow]? = some arrow ∧
        threeBoxes.frame? arrow.source = some source ∧
        threeBoxes.frame? arrow.target = some target ∧ EdgeToEdge source target c.points :=
  ⟨by decide +kernel, (routeAll_orthogonal threeBoxes ⟨0, 10, 4⟩ (by decide)).2⟩

end Schematic.SolvedGraph
