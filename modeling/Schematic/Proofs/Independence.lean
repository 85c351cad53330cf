import Schematic.Proofs.Routing

/-!
# What the course of a connector depends on

The course of a connector, its points and the cells it claims, is settled by the frames of the
diagram and by the boxes that it and the connectors declared before it join. How ends and lines are
drawn, labels, styles and later connectors have no part in it. Two diagrams are routed side by side:
as long as the connectors join the same boxes, each attempt of the one is the attempt of the other,
and leaves the same register behind.

* `SolvedGraph.SameFrames`: diagrams with the same frames.
* `SolvedGraph.SameFrames.routeArrow_eq`: one attempt in both.
* `SolvedGraph.SameFrames.routeFrom_congr`: all attempts in both.
* `SolvedGraph.course?`: the course of the connector with a number.
* `SolvedGraph.courses_agree`: what it depends on.
-/

namespace Schematic

variable {α : Type}

/-- The names of the boxes that a connector joins. -/
def Arrow.joined (a : Arrow α) : String × String := (a.source, a.target)

/-- The course of a connector: its points and the cells that it claims. -/
def Connector.course (c : Connector α) : List (Point α) × (Cell × Cell) := (c.points, c.ends)

/-- The course that came of an attempt, if there is one to draw. -/
def Attempt.course? (a : Attempt α) : Option (List (Point α) × (Cell × Cell)) :=
  a.ends.bind fun ends => a.line.bind fun points =>
    if points.length < 2 then none else some (points, ends)

variable [Scalar α]

theorem Attempt.course?_eq (a : Attempt α) (index : ℕ) (arrow : Arrow α) :
    a.course? = (a.connector? index arrow).map Connector.course := by
  rcases a with ⟨grid, _ | ends, _ | points⟩
  · rfl
  · rfl
  · rfl
  · simp only [course?, connector?, Option.bind_eq_bind, Option.bind_some]
    split <;> rfl

namespace SolvedGraph

variable {s s₁ s₂ : SolvedGraph α} {settings : LayoutSettings α} {id : String} {f : Rect α}
  {a₁ a₂ : Arrow α} {c c' : Connector α} {k i : ℕ}

/-! ### Frames -/

/-- The boxes with their frames, each with the name that it is kept by and the name that it has. -/
def framed (s : SolvedGraph α) : List (String × String × Rect α) :=
  s.graph.boxes.toList.map fun (id, b) => (id, b.id, b.anchors.frame s.solution)

/-- **Diagrams with the same frames**, those of the canvas and of the boxes by their names. -/
structure SameFrames (s₁ s₂ : SolvedGraph α) : Prop where
  canvas : s₁.canvas = s₂.canvas
  boxes : s₁.framed = s₂.framed

theorem frame?_eq_some_iff_framed : s.frame? id = some f ↔ ∃ own, (id, own, f) ∈ s.framed := by
  simp only [frame?, Graph.box?, framed, Option.map_eq_some_iff, List.mem_map, Prod.exists,
    Std.TreeMap.mem_toList_iff_getElem?_eq_some, Prod.mk.injEq]
  constructor
  · rintro ⟨b, hb, rfl⟩
    exact ⟨b.id, id, b, hb, rfl, rfl, rfl⟩
  · rintro ⟨_, _, b, hb, rfl, -, hf⟩
    exact ⟨b, hb, hf⟩

theorem obstacles_eq_framed (s : SolvedGraph α) (target : String) :
    s.obstacles target = (s.framed.filter (·.2.1 != target)).map (·.2.2) := by
  simp only [obstacles, boxFrames, Graph.boxList, framed, List.filter_map, List.map_map]
  rfl

namespace SameFrames

variable (h : SameFrames s₁ s₂)
include h

theorem frame?_eq (id : String) : s₁.frame? id = s₂.frame? id := by
  ext f
  rw [frame?_eq_some_iff_framed, frame?_eq_some_iff_framed, h.boxes]

theorem grid_eq (index : ℕ) (target : String) :
    s₁.grid settings index target = s₂.grid settings index target := by
  rw [grid, grid, h.canvas, obstacles_eq_framed, obstacles_eq_framed, h.boxes]

/-- **One attempt** is the same in both diagrams if it begins with the same register. -/
theorem routeArrow_eq (hjoined : a₁.joined = a₂.joined) (index : ℕ) :
    s₁.routeArrow settings index a₁ = s₂.routeArrow settings index a₂ := by
  obtain ⟨hsource, htarget⟩ := Prod.mk.inj hjoined
  simp only [routeArrow, hsource, htarget, h.frame?_eq, h.grid_eq]

/-- **All attempts** are the same in both diagrams, for as long as the connectors join the same
boxes. -/
theorem routeFrom_congr {arrows₁ arrows₂ : List (Arrow α)}
    (hjoined : (arrows₁.take k).map Arrow.joined = (arrows₂.take k).map Arrow.joined)
    (settings : LayoutSettings α) (n : ℕ) (r : Register) :
    ((s₁.routeFrom settings n arrows₁ r).1.take k).map (·.2) =
      ((s₂.routeFrom settings n arrows₂ r).1.take k).map (·.2) := by
  -- the register that the first attempts leave is the same, so the hypothesis is for all registers
  induction k generalizing n arrows₁ arrows₂ r with
  | zero => simp only [List.take_zero]
  | succ k ih =>
    match arrows₁, arrows₂ with
    | [], [] => rfl
    | [], _ :: _ => simp at hjoined
    | _ :: _, [] => simp at hjoined
    | a₁ :: rest₁, a₂ :: rest₂ =>
      obtain ⟨hfirst, hrest⟩ := List.cons.inj hjoined
      rw [routeFrom_cons, routeFrom_cons, h.routeArrow_eq hfirst]
      simp only [List.take_succ_cons, List.map_cons, ih hrest]

end SameFrames

/-! ### Courses -/

/-- **The course of the connector with a number**, if it is drawn. -/
def course? (s : SolvedGraph α) (settings : LayoutSettings α) (i : ℕ) :
    Option (List (Point α) × (Cell × Cell)) :=
  ((s.routeAll settings).find? (·.arrow == i)).map Connector.course

/-- No two connectors that are drawn have the same number. -/
theorem eq_of_arrow_eq (hc : c ∈ s.routeAll settings) (hc' : c' ∈ s.routeAll settings)
    (h : c.arrow = c'.arrow) : c = c' := by
  obtain ⟨arrow, a, hget, ha⟩ := mem_connectors_iff.1 hc
  obtain ⟨arrow', a', hget', ha'⟩ := mem_connectors_iff.1 hc'
  rw [h, hget', Option.some.injEq, Prod.mk.injEq, Option.some.injEq] at hget
  obtain ⟨rfl, rfl⟩ := hget
  rw [h, ha'] at ha
  exact (Option.some.inj ha).symm

/-- A course is that of the drawn connector with the number. -/
theorem course?_eq_some_iff {course : List (Point α) × (Cell × Cell)} :
    s.course? settings i = some course ↔
      ∃ c ∈ s.routeAll settings, c.arrow = i ∧ c.course = course := by
  rw [course?, Option.map_eq_some_iff]
  constructor
  · rintro ⟨c, hfind, hcourse⟩
    exact ⟨c, List.mem_of_find?_eq_some hfind, by simpa using List.find?_some hfind, hcourse⟩
  · rintro ⟨c, hmem, hnumber, hcourse⟩
    have hfound : ((s.routeAll settings).find? (·.arrow == i)).isSome := by
      rw [List.find?_isSome]
      exact ⟨c, hmem, by simpa using hnumber⟩
    obtain ⟨c', hc'⟩ := Option.isSome_iff_exists.1 hfound
    have hnumber' : c'.arrow = i := by simpa using List.find?_some hc'
    obtain rfl := eq_of_arrow_eq hmem (List.mem_of_find?_eq_some hc') (hnumber.trans hnumber'.symm)
    exact ⟨c, hc', hcourse⟩

/-- The course of a connector is what came of the attempt with its number. -/
theorem course?_eq (s : SolvedGraph α) (settings : LayoutSettings α) (i : ℕ) :
    s.course? settings i =
      (((s.attempts settings).map (·.2))[i]?).bind fun attempt => attempt.bind Attempt.course? := by
  ext course
  rw [course?_eq_some_iff, List.getElem?_map]
  constructor
  · rintro ⟨c, hmem, rfl, rfl⟩
    obtain ⟨arrow, a, hget, ha⟩ := mem_connectors_iff.1 hmem
    simp [hget, a.course?_eq c.arrow arrow, ha]
  · intro hcourse
    obtain ⟨_, hmap, hattempt⟩ := Option.bind_eq_some_iff.1 hcourse
    obtain ⟨⟨arrow, _⟩, hget, rfl⟩ := Option.map_eq_some_iff.1 hmap
    obtain ⟨a, rfl, ha⟩ := Option.bind_eq_some_iff.1 hattempt
    rw [a.course?_eq i arrow, Option.map_eq_some_iff] at ha
    obtain ⟨c, hc, rfl⟩ := ha
    obtain ⟨_, _, _, _, _, rfl⟩ := connector?_eq_some_iff.1 hc
    exact ⟨_, mem_connectors_iff.2 ⟨arrow, a, hget, hc⟩, rfl, rfl⟩

/-- **What the course of a connector depends on.** In diagrams with the same frames whose first
connectors join the same boxes, each of these is drawn in both along the same course or in neither,
whatever else the diagrams have. -/
theorem courses_agree (hframes : SameFrames s₁ s₂)
    (hjoined : (s₁.graph.arrows.take k).map Arrow.joined =
      (s₂.graph.arrows.take k).map Arrow.joined)
    (settings : LayoutSettings α) :
    ∀ i < k, s₁.course? settings i = s₂.course? settings i := by
  intro i hi
  have hattempts := hframes.routeFrom_congr hjoined settings 0 .empty
  have hattempt :
      ((s₁.attempts settings).map (·.2))[i]? = ((s₂.attempts settings).map (·.2))[i]? := by
    rw [← List.getElem?_take_of_lt hi, ← List.map_take, attempts, hattempts, List.map_take,
      List.getElem?_take_of_lt hi]
    rfl
  rw [course?_eq, course?_eq, hattempt]

/-- Three boxes, and connectors from the first to each of the others. -/
def plain : SolvedGraph Rat :=
  pinned (.of 0 0 90 50) [("a", .of 10 10 10 10), ("b", .of 40 30 10 10), ("c", .of 70 10 10 10)]
    [.between "a" "b", .between "a" "c"]

/-- The same boxes with other labels and a style, the same connectors drawn with heads and in other
widths, and one connector more. -/
def dressed : SolvedGraph Rat where
  graph :=
    { plain.graph with
      boxes := plain.graph.boxes.map fun _ b => { b with label := "box", style := some "thick" }
      arrows := [⟨"a", "b", .filledVee, .line, 3⟩, ⟨"a", "c", .line, .filledVee, 2⟩,
        .between "b" "c"] }
  solution := plain.solution

theorem plain_dressed_course : dressed.course? ⟨0, 10, 1⟩ 1 = plain.course? ⟨0, 10, 1⟩ 1 ∧
    (plain.course? ⟨0, 10, 1⟩ 1).isSome := by
  have hframes : SameFrames plain dressed := ⟨by decide +kernel, by decide +kernel⟩
  have hjoined : (plain.graph.arrows.take 2).map Arrow.joined =
      (dressed.graph.arrows.take 2).map Arrow.joined := by decide
  exact ⟨(courses_agree hframes hjoined ⟨0, 10, 1⟩ 1 (by decide)).symm, by decide +kernel⟩

end SolvedGraph

end Schematic
