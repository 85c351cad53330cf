import Schematic.Proofs.Travel

/-!
# What trimming removes

Whatever path leads from a cell of the source to a cell of the target, in and out of both boxes as
often as it likes, trimming takes away no more than what lies within the two. The line through the
centres of the cells is travelled like three lines one after the other: one within the source, the
line that is kept, and one within the target.

* `Room`: the path has a cell outside the source, and there or later one outside the target.
* `Within`: a line that is travelled within a rectangle.
* `Trimmed.Kept`: what is kept of a path.
* `trim_keeps`: a path is refused only where it has no room, and else this much is kept of it.
-/

namespace Schematic

variable {g : AccessGrid Rat} {source target r : Rect Rat} {path between : List Cell}
  {t : Trimmed Rat} {a b : Cell}

/-- **Room for a line**: a cell of the path is outside the source, and the same cell or a later one
is outside the target. -/
def Room (g : AccessGrid Rat) (source target : Rect Rat) (path : List Cell) : Prop :=
  ∃ i j : ℕ, i ≤ j ∧ (∃ c ∈ path[i]?, source.holds (g.center c) = false) ∧
    ∃ c ∈ path[j]?, target.holds (g.center c) = false

/-- A line that lies **wholly within** a rectangle: so does every point that one is at. -/
def Within (r : Rect Rat) (line : List (Point Rat)) : Prop :=
  ∀ d u, 0 ≤ d → travel line d = some u → r.holds u = true

theorem within_of_forall {line : List (Point Rat)} (h : ∀ p ∈ line, r.holds p = true) :
    Within r line := fun _ _ hd hu => holds_of_travel h hd hu

/-- **What is kept of a path**: a line with points of the path between its ends, from the edge of
the source to the edge of the target, that never stands still. Before it the path lies within the
source, and behind it within the target. -/
structure Trimmed.Kept (g : AccessGrid Rat) (source target : Rect Rat) (path : List Cell)
    (t : Trimmed Rat) : Prop where
  interior : t.interior ≠ []
  start : source.OnEdge t.start
  stop : target.OnEdge t.stop
  moves : t.points.IsChain (· ≠ ·)
  way : ∃ front back, SameWay (path.map g.center) (front ++ t.points ++ back) ∧
    Within source (front ++ [t.start]) ∧ Within target (t.stop :: back)

/-- A cut leaves a line that never stands still. -/
theorem Cut.moves (h : Cut g source target path t a b between) (hside : 0 < g.cellSide)
    (hchain : path.IsChain Cell.Beside) : t.points.IsChain (· ≠ ·) := by
  obtain ⟨⟨c, rest, hrest, -, -, hstart, -⟩, init, d, hinit, -, -, hstop, -⟩ :=
    h.crossings hside hchain
  obtain ⟨before, after, hparts⟩ := h.parts
  have hcells : between.IsChain Cell.Beside :=
    hchain.infix ⟨before ++ [a], b :: after, by rw [hparts]; simp⟩
  have hcenters : (between.map g.center).IsChain (· ≠ ·) := by
    rw [List.isChain_map]
    exact hcells.imp fun _ _ hxy => (center_step hside hxy).1
  rw [Trimmed.points, h.interior]
  refine List.IsChain.append (hcenters.cons fun p hp => ?_) (List.isChain_singleton _) ?_
  · obtain rfl : g.center c = p := by simpa [hrest] using hp
    exact hstart
  · intro p hp q hq
    rw [hinit, List.map_append, List.map_singleton, ← List.cons_append, List.getLast?_concat] at hp
    obtain rfl := Option.some.inj hp
    obtain rfl : t.stop = q := by simpa using hq
    exact hstop.symm

/-- **The way of a path that is cut**: its edges are crossed on the way, at the points where the
line between them begins and ends. -/
theorem Cut.sameWay {before after : List Cell} (h : Cut g source target path t a b between)
    (hpath : path = before ++ a :: between ++ b :: after) (hside : 0 < g.cellSide)
    (hchain : path.IsChain Cell.Beside) :
    SameWay (path.map g.center)
      ((before ++ [a]).map g.center ++ t.points ++ (b :: after).map g.center) := by
  obtain ⟨⟨c, rest, hrest, hac, hstart, -⟩, init, d, hinit, hbd, hstop, -⟩ :=
    h.crossings hside hchain
  have hentered : SameWay (path.map g.center)
      (before.map g.center ++ g.center a :: t.start ::
        (between.map g.center ++ (b :: after).map g.center)) := by
    have hline : path.map g.center = before.map g.center ++ g.center a :: g.center c ::
        (rest.map g.center ++ (b :: after).map g.center) := by simp [hpath, hrest]
    have hinsert := sameWay_insert hstart (center_step hside hac).2
      (rest.map g.center ++ (b :: after).map g.center)
    rw [hline, hrest]
    exact hinsert.append_left _
  have hleft : SameWay
      (before.map g.center ++ g.center a :: t.start ::
        (between.map g.center ++ (b :: after).map g.center))
      ((before ++ [a]).map g.center ++ t.points ++ (b :: after).map g.center) := by
    have hinsert := sameWay_insert hstop.symm (center_step hside hbd.symm).2 (after.map g.center)
    have happend := hinsert.append_left
      (before.map g.center ++ g.center a :: t.start :: init.map g.center)
    simpa [Trimmed.points, h.interior, hinit] using happend
  exact hentered.trans hleft

/-- **What trimming keeps**, whatever the path. -/
theorem kept_of_trim (hside : 0 < g.cellSide) (hchain : path.IsChain Cell.Beside)
    (hjoin : Joins g source target path) (h : trim g path source target = some t) :
    t.Kept g source target path := by
  obtain ⟨before, a, between, b, after, hpath, hcut, hsource, htarget⟩ := cut_of_trim hjoin h
  obtain ⟨⟨c, rest, hrest, -, -, -, hstart⟩, _, _, -, -, -, -, hstop⟩ := hcut.crossings hside hchain
  refine ⟨by rw [hcut.interior, hrest]; simp, hstart, hstop, hcut.moves hside hchain, _, _,
    hcut.sameWay hpath hside hchain, within_of_forall fun p hp => ?_, within_of_forall fun p hp => ?_⟩
  · rcases List.mem_append.1 hp with hp | hp
    · obtain ⟨x, hx, rfl⟩ := List.mem_map.1 hp
      exact hsource x hx
    · rw [List.mem_singleton.1 hp]
      exact hstart.within
  · rcases List.mem_cons.1 hp with rfl | hp
    · exact hstop.within
    · obtain ⟨x, hx, rfl⟩ := List.mem_map.1 hp
      exact htarget x hx

theorem room_of_trim (hjoin : Joins g source target path)
    (h : trim g path source target = some t) : Room g source target path := by
  obtain ⟨i, j, hij, -, hleave, henter⟩ := exists_of_trim hjoin h
  obtain ⟨hi, hout, -⟩ := List.findIdx?_eq_some_iff_getElem.1 hleave
  obtain ⟨hj, hout', -⟩ := lastIndex?_eq_some_iff.1 henter
  exact ⟨i + 1, j, hij, ⟨_, List.getElem?_eq_getElem hi, by simpa using hout⟩,
    _, List.getElem?_eq_getElem hj, by simpa using hout'⟩

/-- **Trimming removes only what lies inside the two boxes.** A path from cell to cell that begins
in the source and ends in the target is refused exactly where it has no room for a line. Of every
other one a line from edge to edge is kept, and all that is removed lies within the source before
it, or within the target behind it. -/
theorem trim_keeps (hside : 0 < g.cellSide) (hchain : path.IsChain Cell.Beside)
    (hjoin : Joins g source target path) :
    (trim g path source target = none ↔ ¬Room g source target path) ∧
      (Room g source target path →
        ∃ t, trim g path source target = some t ∧ t.Kept g source target path) := by
  have hroom : Room g source target path → ∃ t, trim g path source target = some t :=
    fun ⟨_, _, hij, hi, hj⟩ => exists_trim hjoin hij hi hj
  refine ⟨⟨fun hnone h => ?_, fun h => ?_⟩, fun h => ?_⟩
  · obtain ⟨t, ht⟩ := hroom h
    simp [hnone] at ht
  · by_contra hsome
    obtain ⟨t, ht⟩ := Option.ne_none_iff_exists'.1 hsome
    exact h (room_of_trim hjoin ht)
  · obtain ⟨t, ht⟩ := hroom h
    exact ⟨t, ht, kept_of_trim hside hchain hjoin ht⟩

/-- A path that leaves its source twice and enters its target twice. -/
def wandering : List Cell :=
  [⟨1, 0⟩, ⟨1, 1⟩, ⟨0, 1⟩, ⟨0, 0⟩, ⟨1, 0⟩, ⟨2, 0⟩, ⟨3, 0⟩, ⟨3, 1⟩, ⟨2, 1⟩, ⟨2, 0⟩, ⟨3, 0⟩]

theorem wandering_kept :
    let g := AccessGrid.ofObstacles (.of 0 0 60 20) [] 0 10
    let t : Trimmed Rat := ⟨⟨15, 10⟩, [⟨15, 15⟩, ⟨5, 15⟩, ⟨5, 5⟩, ⟨15, 5⟩, ⟨25, 5⟩, ⟨35, 5⟩,
      ⟨35, 15⟩, ⟨25, 15⟩, ⟨25, 5⟩], ⟨30, 5⟩⟩
    trim g wandering (.of 0 0 20 10) (.of 30 0 20 10) = some t ∧
      t.Kept g (.of 0 0 20 10) (.of 30 0 20 10) wandering := by
  intro g t
  have hchain : wandering.IsChain Cell.Beside := by
    simp [wandering, Cell.beside_iff]
  have hjoin : Joins g (.of 0 0 20 10) (.of 30 0 20 10) wandering :=
    ⟨⟨⟨1, 0⟩, rfl, by decide +kernel⟩, ⟨3, 0⟩, rfl, by decide +kernel⟩
  have hroom : Room g (.of 0 0 20 10) (.of 30 0 20 10) wandering :=
    ⟨1, 9, by decide, ⟨⟨1, 1⟩, rfl, by decide +kernel⟩, ⟨2, 0⟩, rfl, by decide +kernel⟩
  have htrim : trim g wandering (.of 0 0 20 10) (.of 30 0 20 10) = some t := by decide +kernel
  obtain ⟨t', ht', hkept⟩ := (trim_keeps (by decide) hchain hjoin).2 hroom
  rw [htrim, Option.some.injEq] at ht'
  exact ⟨htrim, ht' ▸ hkept⟩

end Schematic
