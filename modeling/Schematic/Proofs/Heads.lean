import Schematic.Proofs.Orthogonal

/-!
# Arrowheads

Every line that is drawn keeps two different points of one column or one row at either end, so no
end is without a triangle that should have one. The triangle has its tip at the end, and its base
across the last segment.

* `Point.moved`, `Direction.sides`: points at a distance in a direction, and to either side of it.
* `Arrowhead.Sits`: a triangle at the end of a segment.
* `Arrowhead.exists_sits`: there is one at the end of every segment along an axis.
* `ArrowHead.Drawn`: what is drawn at an end of a line.
* `SolvedGraph.routeAll_headed`: what is drawn at the ends of connectors.
-/

namespace Schematic

/-- The point at a distance in a direction, or in the opposite one if the distance is negative. -/
def Point.moved (p : Point Rat) (d : Direction) (distance : Rat) : Point Rat :=
  match d with
  | .up => ⟨p.x, p.y - distance⟩
  | .right => ⟨p.x + distance, p.y⟩
  | .down => ⟨p.x, p.y + distance⟩
  | .left => ⟨p.x - distance, p.y⟩

/-- The two directions across a direction. -/
def Direction.sides : Direction → Direction × Direction
  | up | down => (left, right)
  | left | right => (up, down)

/-- **A triangle at the end of a segment**: the tip is the end, the middle of the base is
`3 + width` away from it towards the next point, and the corners of the base are `2 + width` to
either side. -/
structure Arrowhead.Sits (head : Arrowhead Rat) (tip next : Point Rat) (width : Rat) : Prop where
  atEnd : head.tip = tip
  base : ∃ d distance, 0 < distance ∧ next = tip.moved d distance ∧
    head.left = (tip.moved d (3 + width)).moved d.sides.1 (2 + width) ∧
    head.right = (tip.moved d (3 + width)).moved d.sides.2 (2 + width)

variable {p q tip next : Point Rat} {width : Rat} {line : List (Point Rat)}

/-- A step along an axis leads some way in some direction. -/
theorem Point.Step.exists_moved (h : p.Step q) : ∃ d distance, 0 < distance ∧
    q = p.moved d distance := by
  obtain ⟨hne, hx | hy⟩ := h
  · have hy : p.y ≠ q.y := fun hy => hne (Point.ext hx hy)
    rcases lt_or_gt_of_ne hy with hlt | hlt
    · exact ⟨.down, q.y - p.y, sub_pos.2 hlt, Point.ext hx.symm (by simp [moved])⟩
    · exact ⟨.up, p.y - q.y, sub_pos.2 hlt, Point.ext hx.symm (by simp [moved])⟩
  · have hx : p.x ≠ q.x := fun hx => hne (Point.ext hx hy)
    rcases lt_or_gt_of_ne hx with hlt | hlt
    · exact ⟨.right, q.x - p.x, sub_pos.2 hlt, Point.ext (by simp [moved]) hy.symm⟩
    · exact ⟨.left, p.x - q.x, sub_pos.2 hlt, Point.ext (by simp [moved]) hy.symm⟩

theorem Scalar.signum_of_pos {x : Rat} (h : 0 < x) : Scalar.signum x = 1 := if_pos h

theorem Scalar.signum_of_neg {x : Rat} (h : x < 0) : Scalar.signum x = -1 :=
  (if_neg h.not_gt).trans (if_pos h)

/-- **The triangle at the end of a segment**, by the direction of the segment. -/
theorem Arrowhead.filledVee_moved (tip : Point Rat) (d : Direction) {distance : Rat}
    (hpos : 0 < distance) (width : Rat) : filledVee tip (tip.moved d distance) width = some
      ⟨tip, (tip.moved d (3 + width)).moved d.sides.1 (2 + width),
        (tip.moved d (3 + width)).moved d.sides.2 (2 + width)⟩ := by
  have hback : Scalar.signum distance = 1 := Scalar.signum_of_pos hpos
  have hahead : Scalar.signum (-distance) = -1 := Scalar.signum_of_neg (neg_neg_of_pos hpos)
  cases d <;>
    simp [filledVee, Point.moved, Direction.sides, hpos.ne', hback, hahead, -neg_add_rev]

/-- There is a triangle at the end of every segment along an axis. -/
theorem Arrowhead.exists_sits (h : tip.Step next) (width : Rat) :
    ∃ head, filledVee tip next width = some head ∧ head.Sits tip next width := by
  obtain ⟨d, distance, hpos, rfl⟩ := h.exists_moved
  exact ⟨_, filledVee_moved tip d hpos width, rfl, d, distance, hpos, rfl, rfl, rfl⟩

/-- **What is drawn at an end** of a line: one triangle, or nothing. -/
def ArrowHead.Drawn (kind : ArrowHead) (tip next : Point Rat) (width : Rat)
    (heads : List (Arrowhead Rat)) : Prop :=
  match kind with
  | .line => heads = []
  | .filledVee => ∃ head, heads = [head] ∧ head.Sits tip next width

theorem ArrowHead.drawn_draw (kind : ArrowHead) (h : tip.Step next) (width : Rat)
    (rest : List (Point Rat)) :
    kind.Drawn tip next width (kind.draw width (tip :: next :: rest)).toList := by
  cases kind with
  | line => rfl
  | filledVee =>
    obtain ⟨head, hhead, hsits⟩ := Arrowhead.exists_sits h width
    exact ⟨head, by rw [draw, hhead, Option.toList_some], hsits⟩

/-- **The triangles of a line**: those at its first point, along the first segment, and then those
at its last point, along the last segment. -/
def Arrow.Headed (arrow : Arrow Rat) (line : List (Point Rat)) (heads : List (Arrowhead Rat)) :
    Prop :=
  ∃ first second before last, [first, second] <+: line ∧ [before, last] <:+ line ∧
    ∃ atSource atTarget, heads = atSource ++ atTarget ∧
      arrow.sourceHead.Drawn first second arrow.lineWidth atSource ∧
      arrow.targetHead.Drawn last before arrow.lineWidth atTarget

/-- The first segment of a line of two points or more. -/
theorem exists_first_segment (h : 2 ≤ line.length) : ∃ p q rest, line = p :: q :: rest := by
  match line, h with
  | p :: q :: rest, _ => exact ⟨p, q, rest, rfl⟩

theorem Arrow.headed_heads (arrow : Arrow Rat) (hlen : 2 ≤ line.length)
    (hstep : ∀ p q, [p, q] <:+: line → p.Step q) : arrow.Headed line (arrow.heads line) := by
  obtain ⟨first, second, rest, hfront⟩ := exists_first_segment hlen
  -- read backwards, the line has its last segment first
  obtain ⟨last, before, rest', hback⟩ : ∃ p q rest', line.reverse = p :: q :: rest' :=
    exists_first_segment (by rwa [List.length_reverse])
  have hfirst : [first, second] <+: line := ⟨rest, hfront.symm⟩
  have hlast : [before, last] <:+ line := by
    rw [← List.reverse_prefix, hback]
    exact ⟨rest', rfl⟩
  refine ⟨first, second, before, last, hfirst, hlast, _, _, rfl, ?_, ?_⟩
  · rw [hfront]
    exact ArrowHead.drawn_draw _ (hstep _ _ hfirst.isInfix) _ _
  · rw [hback]
    exact ArrowHead.drawn_draw _ (hstep _ _ hlast.isInfix).symm _ _

namespace SolvedGraph

variable {s : SolvedGraph Rat} {settings : LayoutSettings Rat} {index : ℕ} {arrow : Arrow Rat}
  {r : Register} {c : Connector Rat}

/-- A connector is drawn in the width of its declaration, with the triangles along its line. -/
theorem heads_of_outcome (h : s.outcome settings index arrow r = some c) :
    c.lineWidth = arrow.lineWidth ∧ c.arrowheads = arrow.heads c.points := by
  obtain ⟨a, -, hc⟩ := Option.bind_eq_some_iff.1 h
  obtain ⟨_, _, -, -, -, rfl⟩ := connector?_eq_some_iff.1 hc
  exact ⟨rfl, rfl⟩

/-- **No triangle is lost or misplaced.** Every connector that is drawn has one triangle for each of
its ends that is drawn as one, that of the source first, and none for the others. -/
theorem routeAll_headed (s : SolvedGraph Rat) (settings : LayoutSettings Rat)
    (hside : 0 < settings.cellSide) : ∀ c ∈ s.routeAll settings, ∃ arrow,
      s.graph.arrows[c.arrow]? = some arrow ∧ c.lineWidth = arrow.lineWidth ∧
        arrow.Headed c.points c.arrowheads := by
  intro c hc
  obtain ⟨arrow, r, harrow, hout⟩ := mem_routeAll hc
  obtain ⟨source, target, path, t, hrouted⟩ := routed_of_outcome hout
  obtain ⟨hwidth, hheads⟩ := heads_of_outcome hout
  have hline := hrouted.orthogonal hside
  refine ⟨arrow, harrow, hwidth, ?_⟩
  rw [hheads]
  exact arrow.headed_heads hline.length hline.turning.step

/-- Two boxes, and connectors with two triangles, with one whose base is in front of its tip, and
with none. -/
def pointed : SolvedGraph Rat :=
  pinned (.of 0 0 90 60) [("a", .of 10 10 10 20), ("b", .of 60 10 10 20)]
    [⟨"a", "b", .filledVee, .filledVee, 1⟩, ⟨"b", "a", .line, .filledVee, -5⟩, .between "a" "b"]

theorem pointed_headed :
    (pointed.routeAll ⟨0, 10, 0⟩).map (fun c => (c.points, c.arrowheads)) =
      [([⟨20, 15⟩, ⟨60, 15⟩], [⟨⟨20, 15⟩, ⟨24, 12⟩, ⟨24, 18⟩⟩, ⟨⟨60, 15⟩, ⟨56, 12⟩, ⟨56, 18⟩⟩]),
        ([⟨60, 25⟩, ⟨20, 25⟩], [⟨⟨20, 25⟩, ⟨18, 28⟩, ⟨18, 22⟩⟩]),
        ([⟨20, 15⟩, ⟨60, 15⟩], [])] ∧
      ∀ c ∈ pointed.routeAll ⟨0, 10, 0⟩, ∃ arrow, pointed.graph.arrows[c.arrow]? = some arrow ∧
        c.lineWidth = arrow.lineWidth ∧ arrow.Headed c.points c.arrowheads :=
  ⟨by decide +kernel, routeAll_headed pointed ⟨0, 10, 0⟩ (by decide)⟩

end SolvedGraph

end Schematic
