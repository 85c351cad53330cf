import Schematic.Proofs.Distance

/-!
# Shortest paths

The way back from a goal through a flooded grid goes down the distances one by one, so
the path it makes up has the cells of distance `0`, `1`, `2` and so on.

* `AccessGrid.Shortest`: what makes a list of cells a shortest path.
* `AccessGrid.shortest_of_shortestPath`: the path that is found is one.
* `AccessGrid.exists_shortestPath`: one is found if there is any way at all.
* `AccessGrid.Leads`: a way from cell to cell, said by the access of the cells alone.
* `AccessGrid.shortestPath_least`: a path is found where there is a way, and no way is shorter.
-/

namespace Schematic.AccessGrid

variable {α : Type} {g : AccessGrid α} {start goal a c p : Cell} {n : ℕ} {path other : List Cell}

/-- **A shortest path**: allowed steps, and the cell with number `i` is `i` steps away. -/
structure Shortest (g : AccessGrid α) (start goal : Cell) (path : List Cell) : Prop where
  chain : path.IsChain fun a b => b ∈ g.successors a
  nearest : ∀ i (h : i < path.length), g.Distance start i path[i]
  last : path.getLast? = some goal

namespace Shortest

theorem ne_nil (h : g.Shortest start goal path) : path ≠ [] := by
  rintro rfl
  simpa using h.last

theorem head (h : g.Shortest start goal path) : path.head? = some start := by
  have hpos : 0 < path.length := List.length_pos_iff.2 h.ne_nil
  rw [List.head?_eq_getElem?, List.getElem?_eq_getElem hpos,
    Distance.zero_iff.1 (h.nearest 0 hpos)]

/-- No cell comes twice, since its number is its distance. -/
theorem nodup (h : g.Shortest start goal path) : path.Nodup := by
  rw [List.nodup_iff_injective_get]
  intro i j hij
  have hi := h.nearest i i.isLt
  have hj := h.nearest j j.isLt
  simp only [List.get_eq_getElem] at hij
  rw [hij] at hi
  exact Fin.ext (hi.unique hj)

theorem contains (hs : g.contains start = true) (h : g.Shortest start goal path) :
    ∀ c ∈ path, g.contains c = true := by
  intro c hc
  obtain ⟨i, hi, rfl⟩ := List.getElem_of_mem hc
  exact (h.nearest i hi).walk.contains hs

/-- A shortest path with another cell one step behind its goal. -/
theorem snoc (h : g.Shortest start p path) (hlen : path.length = n + 1)
    (hc : g.Distance start (n + 1) c) (hstep : c ∈ g.successors p) :
    g.Shortest start c (path ++ [c]) := by
  refine ⟨List.isChain_append.2 ⟨h.chain, List.isChain_singleton c, ?_⟩, fun i hi => ?_, by simp⟩
  · intro x hx y hy
    rw [h.last] at hx
    simp only [Option.mem_def, Option.some.injEq, List.head?_cons] at hx hy
    subst hx hy
    exact hstep
  · rw [List.length_append, List.length_singleton] at hi
    rcases Nat.eq_or_lt_of_le (Nat.lt_succ_iff.1 hi) with hi | hi
    · simpa [hi, hlen] using hc
    · simpa [List.getElem_append_left hi] using h.nearest i hi

end Shortest

/-- A shortest path of no step. -/
theorem shortest_singleton (start : Cell) : g.Shortest start start [start] := by
  refine ⟨List.isChain_singleton _, fun i hi => ?_, by simp⟩
  obtain rfl : i = 0 := by simpa using hi
  exact Distance.zero_iff.2 rfl

theorem mem_around_of_neighbor? {d : Direction} (h : a.neighbor? d = some c) : a ∈ around c :=
  List.mem_filterMap.2 ⟨d.opposite, by cases d <;> simp [Direction.opposite],
    Cell.neighbor?_opposite h⟩

/-- The predecessors of a cell are the cells that it is a successor of. -/
theorem mem_predecessors : a ∈ g.predecessors c ↔ c ∈ g.successors a := by
  rw [predecessors, List.mem_filter, List.contains_iff_mem]
  refine ⟨And.right, fun h => ⟨?_, h⟩⟩
  obtain ⟨d, -, hd, -⟩ := mem_successors.1 h
  exact mem_around_of_neighbor? hd

/-- **The way back** through a grid whose distances up to `m` are known is a shortest path. -/
theorem wayBack_spec {reach : Reach} {m : ℕ} (hs : g.contains start = true)
    (hreach : ∀ c, g.contains c = true → ∀ k, reach.at? c = some k ↔ k ≤ m ∧ g.Distance start k c)
    (hn : n ≤ m) (hc : g.Distance start n c) (after : List Cell) :
    ∃ path, g.wayBack reach n c after = path ++ after ∧ path.length = n + 1 ∧
      g.Shortest start c path := by
  induction n generalizing c after with
  | zero =>
    obtain rfl := Distance.zero_iff.1 hc
    exact ⟨[c], rfl, rfl, shortest_singleton c⟩
  | succ n ih =>
    obtain ⟨a, ha, hstep⟩ := hc.pred
    rw [wayBack]
    cases hfind : (g.predecessors c).find? fun p => reach.at? p == some n with
    | none =>
      -- the neighbour `a` that is nearer by one step would have been found
      have hat := (hreach a (contains_of_mem_successors hstep).1 n).2 ⟨by omega, ha⟩
      have := List.find?_eq_none.1 hfind a (mem_predecessors.2 hstep)
      simp [hat] at this
    | some p =>
      have hpc := mem_predecessors.1 (List.mem_of_find?_eq_some hfind)
      have hp : reach.at? p = some n := by simpa using List.find?_some hfind
      have hd := ((hreach p (contains_of_mem_successors hpc).1 n).1 hp).2
      obtain ⟨path, hpath, hlen, hshort⟩ := ih (by omega) hd (c :: after)
      exact ⟨path ++ [c], by simp [hpath], by simp [hlen], hshort.snoc hlen hc hpc⟩

/-- **What is found is a shortest path** within the grid. -/
theorem shortest_of_shortestPath (h : g.shortestPath start goal = some path) :
    g.contains start = true ∧ g.Shortest start goal path := by
  rw [shortestPath] at h
  split at h
  · rename_i hin
    rw [Bool.and_eq_true] at hin
    obtain ⟨m, hreach, -⟩ := reachFrom_spec hin.1 hin.2
    obtain ⟨n, hn, rfl⟩ := Option.map_eq_some_iff.1 h
    obtain ⟨hle, hd⟩ := (hreach goal hin.2 n).1 hn
    obtain ⟨path, hpath, -, hshort⟩ := wayBack_spec hin.1 hreach hle hd []
    rw [List.append_nil] at hpath
    exact ⟨hin.1, hpath ▸ hshort⟩
  · simp at h

/-- **A path is found** wherever there is a way. -/
theorem exists_shortestPath (hs : g.contains start = true) (h : g.Walk start n goal) :
    ∃ path, g.shortestPath start goal = some path := by
  have hg := h.contains hs
  obtain ⟨m, hreach, hgoal⟩ := reachFrom_spec hs hg
  obtain ⟨k, -, hk⟩ := h.distance
  have hat := (hreach goal hg k).2 ⟨hgoal k hk, hk⟩
  exact ⟨g.wayBack (g.reachFrom start goal) k goal [], by simp [shortestPath, hs, hg, hat]⟩

/-! ### Ways from cell to cell -/

/-- **A way through a grid**: cells from a start to a goal, each of them next to the one before,
within the grid and in a direction in which that one may be left. -/
structure Leads (g : AccessGrid α) (start goal : Cell) (path : List Cell) : Prop where
  head : path.head? = some start
  last : path.getLast? = some goal
  steps : path.IsChain fun a b =>
    ∃ d, (g.access a).allows d = true ∧ a.neighbor? d = some b ∧ g.contains b = true

/-- A way with one cell more than steps. -/
theorem Leads.walk (h : g.Leads start goal path) :
    ∃ n, path.length = n + 1 ∧ g.Walk start n goal := by
  -- a walk grows at its end, so the induction takes the last cell away
  induction path using List.reverseRecOn generalizing goal with
  | nil =>
    have hhead := h.head
    simp at hhead
  | append_singleton cells c ih =>
    have hlast := h.last
    rw [List.getLast?_concat] at hlast
    obtain rfl : c = goal := Option.some.inj hlast
    by_cases hnil : cells = []
    · subst hnil
      have hhead := h.head
      obtain rfl : c = start := by simpa using hhead
      exact ⟨0, rfl, .here⟩
    · have hhead : cells.head? = some start := by
        have hhead := h.head
        rwa [List.head?_append_of_ne_nil _ hnil] at hhead
      have ha : cells.getLast? = some (cells.getLast hnil) := List.getLast?_eq_some_getLast hnil
      obtain ⟨hcells, -, hstep⟩ := List.isChain_append.1 h.steps
      obtain ⟨n, hlength, hwalk⟩ := ih ⟨hhead, ha, hcells⟩
      have hnext := mem_successors.2 (hstep _ ha c rfl)
      exact ⟨n + 1, by simp [hlength], hwalk.step hnext⟩

namespace Shortest

theorem leads (h : g.Shortest start goal path) : g.Leads start goal path :=
  ⟨h.head, h.last, h.chain.imp fun _ _ => mem_successors.1⟩

/-- No way is shorter, since the last cell is as many steps away as there are steps. -/
theorem length_le (h : g.Shortest start goal path) (hother : g.Leads start goal other) :
    path.length ≤ other.length := by
  have hpos : 0 < path.length := List.length_pos_iff.2 h.ne_nil
  have hlast : path[path.length - 1] = goal := by
    have hgoal := h.last
    rw [List.getLast?_eq_getElem?, List.getElem?_eq_getElem (by omega)] at hgoal
    exact Option.some.inj hgoal
  have hdistance := h.nearest (path.length - 1) (by omega)
  rw [hlast] at hdistance
  obtain ⟨n, hlength, hwalk⟩ := hother.walk
  have hle := hdistance.least n hwalk
  omega

end Shortest

/-- **Paths are found where there are ways, and no way is shorter.** There is no path if and only
if one of the two cells lies outside the grid or no way leads from the first to the second. A path
that is found is a way, comes to no cell twice and has no more cells than any other way. -/
theorem shortestPath_least (g : AccessGrid α) (start goal : Cell) :
    (g.shortestPath start goal = none ↔ g.contains start = false ∨ g.contains goal = false ∨
      ¬∃ path, g.Leads start goal path) ∧
    ∀ path ∈ g.shortestPath start goal, g.Leads start goal path ∧ path.Nodup ∧
      ∀ other, g.Leads start goal other → path.length ≤ other.length := by
  constructor
  · constructor
    · intro hnone
      by_contra hway
      simp only [not_or, not_not, Bool.not_eq_false] at hway
      obtain ⟨hstart, -, path, hpath⟩ := hway
      obtain ⟨n, -, hwalk⟩ := hpath.walk
      obtain ⟨found, hfound⟩ := exists_shortestPath hstart hwalk
      simp [hnone] at hfound
    · intro hno
      by_contra hsome
      obtain ⟨path, hpath⟩ := Option.ne_none_iff_exists'.1 hsome
      obtain ⟨hstart, hshort⟩ := shortest_of_shortestPath hpath
      have hgoal := hshort.contains hstart goal (List.mem_of_getLast? hshort.last)
      rcases hno with hno | hno | hno
      · simp [hstart] at hno
      · simp [hgoal] at hno
      · exact hno ⟨path, hshort.leads⟩
  · intro path hpath
    obtain ⟨-, hshort⟩ := shortest_of_shortestPath hpath
    exact ⟨hshort.leads, hshort.nodup, fun other => hshort.length_le⟩

/-- Three columns and two rows, with a ring that is walked in one direction only. -/
def roundabout : AccessGrid Rat where
  width := 3
  height := 2
  cellSide := 1
  cells := #[⟨false, true, false, false⟩, ⟨false, true, false, false⟩, ⟨false, false, true, false⟩,
    ⟨true, false, false, false⟩, ⟨false, false, false, true⟩, ⟨false, false, false, true⟩]
  size_cells := rfl

/-- The next cell to the left is five steps away. -/
theorem roundabout_least : ∃ path, roundabout.shortestPath ⟨1, 0⟩ ⟨0, 0⟩ = some path ∧
    path.length = 6 ∧ roundabout.Leads ⟨1, 0⟩ ⟨0, 0⟩ path ∧ path.Nodup ∧
    ∀ other, roundabout.Leads ⟨1, 0⟩ ⟨0, 0⟩ other → path.length ≤ other.length := by
  have hpath : roundabout.shortestPath ⟨1, 0⟩ ⟨0, 0⟩ =
      some [⟨1, 0⟩, ⟨2, 0⟩, ⟨2, 1⟩, ⟨1, 1⟩, ⟨0, 1⟩, ⟨0, 0⟩] := by decide +kernel
  exact ⟨_, hpath, rfl, (shortestPath_least roundabout ⟨1, 0⟩ ⟨0, 0⟩).2 _ hpath⟩

end Schematic.AccessGrid
