import Mathlib
import Schematic.Route.Connector

/-!
# Attempts to route connectors

How the connectors of a diagram come about, whatever the numbers are: one attempt for each, in the
order of their declarations, with the register going from one to the next.

* `SolvedGraph.claimEnds_of_none`, `SolvedGraph.claimEnds_of_some`: what a connector claims.
* `SolvedGraph.routeArrow_eq`, `SolvedGraph.routeArrow_of_missing`,
  `SolvedGraph.exists_of_routeArrow`: one attempt.
* `SolvedGraph.routeFrom_cons`, `SolvedGraph.routeFrom_getElem?`: all attempts.
* `SolvedGraph.mem_connectors_iff`: what is drawn of attempts.
* `SolvedGraph.connectors_pairwise`: connectors keep the order of their declarations.
-/

namespace Schematic.SolvedGraph

variable {α : Type} [Scalar α] {s : SolvedGraph α} {settings : LayoutSettings α} {index n : ℕ}
  {arrow : Arrow α} {r : Register} {c : Connector α} {source target : Rect α}

/-! ### Claims -/

section Claims

variable {cells : List Cell × List Cell} {start : Cell}

/-- The target is not asked if there is no cell of the source. -/
theorem claimEnds_of_none (h : (Register.pick cells.1 r).1 = none) :
    claimEnds cells r = (none, (Register.pick cells.1 r).2) := by
  rcases hpick : Register.pick cells.1 r with ⟨first, r'⟩
  obtain rfl : first = none := by rwa [hpick] at h
  simp only [claimEnds, bind, StateT.bind, hpick]
  rfl

/-- The cell of the target is picked after that of the source. -/
theorem claimEnds_of_some (h : (Register.pick cells.1 r).1 = some start) :
    claimEnds cells r =
      let stop := Register.pick cells.2 (Register.pick cells.1 r).2
      (stop.1.map fun stop => (start, stop), stop.2) := by
  rcases hpick : Register.pick cells.1 r with ⟨first, r'⟩
  obtain rfl : first = some start := by rwa [hpick] at h
  rcases hpick' : Register.pick cells.2 r' with ⟨second, r''⟩
  simp only [claimEnds, bind, StateT.bind, hpick, hpick']
  cases second <;> rfl

end Claims

/-! ### One attempt -/

/-- Where a box is missing nothing is claimed. -/
theorem routeArrow_of_missing (h : s.frame? arrow.source = none ∨ s.frame? arrow.target = none) :
    s.routeArrow settings index arrow r = (none, r) := by
  unfold routeArrow
  rcases h with h | h
  · rw [h]; rfl
  · rw [h]; cases s.frame? arrow.source <;> rfl

theorem routeArrow_eq (hs : s.frame? arrow.source = some source)
    (ht : s.frame? arrow.target = some target) :
    s.routeArrow settings index arrow r =
      let grid := s.grid settings index arrow.target
      let claim := claimEnds (grid.candidates source target) r
      (some ⟨grid, claim.1, claim.1.bind (line? grid source target)⟩, claim.2) := by
  unfold routeArrow
  rw [hs, ht]
  rfl

/-- An attempt is made between the frames of two boxes. -/
theorem exists_of_routeArrow {a : Attempt α}
    (h : (s.routeArrow settings index arrow r).1 = some a) :
    ∃ source target, s.frame? arrow.source = some source ∧ s.frame? arrow.target = some target ∧
      let grid := s.grid settings index arrow.target
      let claim := claimEnds (grid.candidates source target) r
      a = ⟨grid, claim.1, claim.1.bind (line? grid source target)⟩ := by
  cases hs : s.frame? arrow.source with
  | none => simp [routeArrow_of_missing (Or.inl hs)] at h
  | some source =>
    cases ht : s.frame? arrow.target with
    | none => simp [routeArrow_of_missing (Or.inr ht)] at h
    | some target =>
      rw [routeArrow_eq hs ht] at h
      exact ⟨source, target, rfl, rfl, (Option.some.inj h).symm⟩

theorem line?_eq_some_iff {g : AccessGrid α} {ends : Cell × Cell} {points : List (Point α)} :
    line? g source target ends = some points ↔ ∃ path t, g.shortestPath ends.1 ends.2 = some path ∧
      trim g path source target = some t ∧ dedup (simplify t.points) = points := by
  simp [line?, Option.bind_eq_some_iff]

theorem connector?_eq_some_iff {a : Attempt α} : a.connector? index arrow = some c ↔
    ∃ ends points, a.ends = some ends ∧ a.line = some points ∧ 2 ≤ points.length ∧
      ⟨index, points, arrow.heads points, ends, arrow.lineWidth⟩ = c := by
  simp only [Attempt.connector?, Option.bind_eq_bind, Option.bind_eq_some_iff]
  constructor
  · rintro ⟨ends, hends, points, hpoints, h⟩
    split at h
    · simp at h
    · exact ⟨ends, points, hends, hpoints, by omega, by simpa using h⟩
  · rintro ⟨ends, points, hends, hpoints, hlen, rfl⟩
    exact ⟨ends, hends, points, hpoints, by rw [if_neg (by omega)]; rfl⟩

/-! ### All attempts -/

/-- The register goes from one attempt to the next, the number along with it. -/
theorem routeFrom_cons (arrow : Arrow α) (rest : List (Arrow α)) :
    s.routeFrom settings n (arrow :: rest) r =
      let attempt := s.routeArrow settings n arrow r
      let attempts := s.routeFrom settings (n + 1) rest attempt.2
      ((arrow, attempt.1) :: attempts.1, attempts.2) := rfl

/-- Every attempt is the attempt at the connector with its number. -/
theorem routeFrom_getElem? {i : ℕ} {arrows : List (Arrow α)} {a : Arrow α × Option (Attempt α)}
    (h : (s.routeFrom settings n arrows r).1[i]? = some a) :
    arrows[i]? = some a.1 ∧ ∃ r', a.2 = (s.routeArrow settings (n + i) a.1 r').1 := by
  induction arrows generalizing n i r with
  | nil => simp [routeFrom, pure, StateT.pure] at h
  | cons arrow rest ih =>
    rw [routeFrom_cons] at h
    cases i with
    | zero =>
      obtain rfl : _ = a := by simpa using h
      exact ⟨rfl, r, rfl⟩
    | succ i =>
      obtain ⟨harrow, r', hr'⟩ := ih h
      exact ⟨by simpa using harrow, r', by rw [hr', show n + (i + 1) = n + 1 + i by omega]⟩

/-! ### What is drawn -/

/-- **A drawn connector** comes of the attempt with its number. -/
theorem mem_connectors_iff {attempts : List (Arrow α × Option (Attempt α))} :
    c ∈ connectors attempts ↔ ∃ arrow a, attempts[c.arrow]? = some (arrow, some a) ∧
      a.connector? c.arrow arrow = some c := by
  simp only [connectors, List.mem_filterMap, Option.bind_eq_some_iff]
  constructor
  · rintro ⟨⟨⟨arrow, attempt⟩, i⟩, hmem, a, rfl, ha⟩
    have hget := List.mem_zipIdx_iff_getElem?.1 hmem
    obtain rfl : c.arrow = i := by
      obtain ⟨_, _, _, _, _, rfl⟩ := connector?_eq_some_iff.1 ha
      rfl
    exact ⟨arrow, a, hget, ha⟩
  · rintro ⟨arrow, a, hget, ha⟩
    exact ⟨((arrow, some a), c.arrow), List.mem_zipIdx_iff_getElem?.2 hget, a, rfl, ha⟩

/-- Connectors are drawn in the order of their declarations. -/
theorem connectors_pairwise (attempts : List (Arrow α × Option (Attempt α))) :
    ((connectors attempts).map (·.arrow)).Pairwise (· < ·) := by
  -- the numbers grow along the attempts, and leaving out some keeps that
  have hnumber : attempts.zipIdx.Pairwise fun a b => a.2 < b.2 := by
    rw [List.pairwise_iff_getElem]
    intro i j hi hj hij
    simpa using hij
  rw [connectors, List.pairwise_map]
  refine hnumber.filterMap _ ?_
  rintro ⟨⟨arrow, attempt⟩, i⟩ ⟨⟨arrow', attempt'⟩, j⟩ hij c hc c' hc'
  obtain ⟨a, -, ha⟩ := Option.bind_eq_some_iff.1 hc
  obtain ⟨a', -, ha'⟩ := Option.bind_eq_some_iff.1 hc'
  obtain ⟨_, _, _, _, _, rfl⟩ := connector?_eq_some_iff.1 ha
  obtain ⟨_, _, _, _, _, rfl⟩ := connector?_eq_some_iff.1 ha'
  exact hij

end Schematic.SolvedGraph
