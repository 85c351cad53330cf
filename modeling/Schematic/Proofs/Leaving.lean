import Schematic.Proofs.Shortest
import Schematic.Proofs.Stepping

/-!
# Leaving obstacles

A cell may be left towards a grown obstacle only where a grown obstacle covers it. So a route gets
away from the grown obstacles once and for all: after a cell that is clear of all of them comes no
cell that is not.

* `Touched`: the square of a cell has a point in common with a grown obstacle.
* `AccessGrid.touched_of_step`: a step leads to such a cell only from such a cell.
* `Departs`, `departs_of_chain`: a list that begins with such cells and has no others later.
* `AccessGrid.shortestPath_departs`: every path among obstacles is one.
-/

namespace Schematic

variable {canvas : Rect Rat} {frames : List (Rect Rat)} {margin side : Rat} {a b start goal : Cell}
  {path : List Cell}

/-- The square of a cell **has a point in common** with an obstacle grown by the margin. -/
def Touched (frames : List (Rect Rat)) (margin side : Rat) (c : Cell) : Prop :=
  ∃ r ∈ frames, ∃ p, (r.inset (-margin)).holds p = true ∧ (c.square side).holds p = true

/-- A rectangle holds the points of what it covers. -/
theorem Rect.holds_of_covers {r s : Rect Rat} {p : Point Rat} (h : r.covers s = true)
    (hp : s.holds p = true) : r.holds p = true := by
  rw [covers_iff] at h
  rw [holds_iff] at hp ⊢
  exact ⟨⟨h.1.1.trans hp.1.1, hp.1.2.trans h.1.2⟩, h.2.1.trans hp.2.1, hp.2.2.trans h.2.2⟩

/-- A square holds its own corner, so what covers it has a point in common with it. -/
theorem touched_of_covers (hside : 0 < side) {r : Rect Rat} (hr : r ∈ frames)
    (h : (r.inset (-margin)).covers (a.square side) = true) : Touched frames margin side a := by
  have hcorner : (a.square side).holds ⟨a.x * side, a.y * side⟩ = true := by
    rw [Rect.holds_iff]
    simp only [Cell.left_square, Cell.right_square, Cell.top_square, Cell.bottom_square]
    exact ⟨⟨le_rfl, by linarith⟩, le_rfl, by linarith⟩
  exact ⟨r, hr, _, Rect.holds_of_covers h hcorner, hcorner⟩

/-- The test of obstacles finds the points in common. It finds more only where a grown obstacle is
turned inside out by a negative margin. -/
theorem Touched.meets (h : Touched frames margin side a) :
    Obstacle.meets (frames.map (Obstacle.ofFrame margin)) (a.square side) = true := by
  obtain ⟨r, hr, p, hgrown, hsquare⟩ := h
  by_contra hclear
  have hnot := AccessGrid.obstacle_meets_eq_false.1 (Bool.eq_false_iff.2 hclear) r hr
  rw [Rect.meets_of_holds hgrown hsquare] at hnot
  exact absurd hnot (by decide)

namespace AccessGrid

/-- **A step among obstacles** comes from a cell that is touched, or leads to one that meets
none. -/
theorem touched_or_clear (hside : 0 < side)
    (h : b ∈ (ofObstacles canvas frames margin side).successors a) :
    Touched frames margin side a ∨
      Obstacle.meets (frames.map (Obstacle.ofFrame margin)) (b.square side) = false := by
  rcases step_covered_or_clear h with ⟨r, hr, hcover⟩ | hclear
  · exact .inl (touched_of_covers hside hr hcover)
  · exact .inr (obstacle_meets_eq_false.2 hclear)

theorem touched_of_step (hside : 0 < side)
    (h : b ∈ (ofObstacles canvas frames margin side).successors a)
    (hb : Touched frames margin side b) : Touched frames margin side a := by
  refine (touched_or_clear hside h).resolve_right fun hclear => ?_
  rw [hb.meets] at hclear
  exact absurd hclear (by decide)

theorem meets_of_step (hside : 0 < side)
    (h : b ∈ (ofObstacles canvas frames margin side).successors a)
    (hb : Obstacle.meets (frames.map (Obstacle.ofFrame margin)) (b.square side) = true) :
    Obstacle.meets (frames.map (Obstacle.ofFrame margin)) (a.square side) = true := by
  refine ((touched_or_clear hside h).resolve_right fun hclear => ?_).meets
  rw [hb] at hclear
  exact absurd hclear (by decide)

end AccessGrid

/-- A path that **departs** from some cells: it begins with cells of this kind, and behind the first
cell of another kind there are none of them. -/
def Departs (kind : Cell → Prop) (path : List Cell) : Prop :=
  ∃ before after, path = before ++ after ∧ (∀ c ∈ before, kind c) ∧ ∀ c ∈ after, ¬kind c

/-- A path departs from the cells that no step leads back to. -/
theorem departs_of_chain {step : Cell → Cell → Prop} {kind : Cell → Prop} (h : path.IsChain step)
    (hback : ∀ a b, step a b → kind b → kind a) : Departs kind path := by
  induction path with
  | nil => exact ⟨[], [], rfl, by simp, by simp⟩
  | cons c rest ih =>
    by_cases hc : kind c
    · obtain ⟨before, after, rfl, hbefore, hafter⟩ := ih h.tail
      refine ⟨c :: before, after, rfl, ?_, hafter⟩
      intro x hx
      rcases List.mem_cons.1 hx with rfl | hx
      · exact hc
      · exact hbefore x hx
    · -- all cells from here on are of another kind, one after the other
      refine ⟨[], c :: rest, rfl, by simp, ?_⟩
      exact h.induction _ _ (fun a b hstep ha hb => ha (hback a b hstep hb)) fun _ => hc

namespace AccessGrid

/-- **A route never goes back into an obstacle.** On every path through a grid with obstacles the
cells that have a point in common with a grown obstacle come first, and after a cell that has none
all cells have none; and so it is with the cells that the test of obstacles finds. -/
theorem shortestPath_departs (hside : 0 < side)
    (h : (ofObstacles canvas frames margin side).shortestPath start goal = some path) :
    Departs (Touched frames margin side) path ∧
      Departs (fun c =>
        Obstacle.meets (frames.map (Obstacle.ofFrame margin)) (c.square side) = true) path := by
  have hchain := (shortest_of_shortestPath h).2.chain
  constructor
  · exact departs_of_chain hchain fun a b => touched_of_step hside
  · exact departs_of_chain hchain fun a b => meets_of_step hside

/-- A box of two cells in a row of six, with half a cell kept free around it. -/
def pillar : Rect Rat := .of 10 0 10 20

/-- From the box to the right, past the cell that its margin reaches. -/
theorem outward_departs :
    (ofObstacles (.of 0 0 60 20) [pillar] 5 10).shortestPath ⟨1, 0⟩ ⟨4, 0⟩ =
        some [⟨1, 0⟩, ⟨2, 0⟩, ⟨3, 0⟩, ⟨4, 0⟩] ∧
      Departs (Touched [pillar] 5 10) [⟨1, 0⟩, ⟨2, 0⟩, ⟨3, 0⟩, ⟨4, 0⟩] ∧
      Touched [pillar] 5 10 ⟨2, 0⟩ ∧ ¬Touched [pillar] 5 10 ⟨3, 0⟩ := by
  have hpath : (ofObstacles (.of 0 0 60 20) [pillar] 5 10).shortestPath ⟨1, 0⟩ ⟨4, 0⟩ =
      some [⟨1, 0⟩, ⟨2, 0⟩, ⟨3, 0⟩, ⟨4, 0⟩] := by decide +kernel
  refine ⟨hpath, (shortestPath_departs (by decide) hpath).1, ?_, fun htouched => ?_⟩
  · exact ⟨pillar, by simp, ⟨22, 5⟩, by decide +kernel, by decide +kernel⟩
  · have hmeets := htouched.meets
    revert hmeets
    decide +kernel

end AccessGrid

end Schematic
