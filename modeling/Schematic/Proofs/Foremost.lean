import Schematic.Proofs.Shortest
import Schematic.Route.Queue

/-!
# Foremost predecessors

Of several shortest paths one is singled out: the one on which every cell but the last is the
foremost cell that its successor can be reached from by one step more, column by column.

* `AccessGrid.Foremost`: the foremost cell one step before a cell.
* `AccessGrid.Canonical`: a path of such cells; `AccessGrid.Canonical.unique`: there is only one.
* `AccessGrid.canonical_of_shortestPath`: the way back through a flooded grid follows it.
-/

namespace Schematic

theorem Cell.place_lt_iff {a b : Cell} : a.place < b.place ↔ a.x < b.x ∨ a.x = b.x ∧ a.y < b.y :=
  Prod.Lex.toLex_lt_toLex

theorem Cell.place_injective : Function.Injective Cell.place := by
  intro a b h
  have hpair : (a.x, a.y) = (b.x, b.y) := toLex_inj.1 h
  exact Cell.ext (congrArg Prod.fst hpair) (congrArg Prod.snd hpair)

namespace AccessGrid

variable {α : Type} {g : AccessGrid α} {start goal a b c p q : Cell} {n m : ℕ}
  {path other cells : List Cell}

/-- **The foremost cell before a cell**: it is `n` steps away from the start, a step leads from it
to the cell, and of all cells of which both is true it has the least column, then the least row. -/
structure Foremost (g : AccessGrid α) (start : Cell) (n : ℕ) (p c : Cell) : Prop where
  distance : g.Distance start n p
  step : c ∈ g.successors p
  least : ∀ q, g.Distance start n q → c ∈ g.successors q → p.place ≤ q.place

theorem Foremost.unique (hp : g.Foremost start n p c) (hq : g.Foremost start n q c) : p = q :=
  Cell.place_injective (le_antisymm (hp.least q hq.distance hq.step)
    (hq.least p hp.distance hp.step))

/-- A cell follows the foremost of the cells that are nearer to the start by one step. -/
def Follows (g : AccessGrid α) (start p c : Cell) : Prop :=
  ∃ n, g.Distance start (n + 1) c ∧ g.Foremost start n p c

theorem Follows.unique (hp : g.Follows start p c) (hq : g.Follows start q c) : p = q := by
  obtain ⟨n, hn, hp⟩ := hp
  obtain ⟨m, hm, hq⟩ := hq
  obtain rfl : n = m := Nat.succ.inj (hn.unique hm)
  exact hp.unique hq

/-- Nothing comes before the start. -/
theorem not_follows_start : ¬g.Follows start p start := by
  rintro ⟨n, hn, -⟩
  have hzero := hn.unique (Distance.zero_iff.2 rfl)
  omega

/-! ### The canonical path -/

/-- **The canonical path**: from its start to its goal every cell follows the foremost cell before
it. -/
structure Canonical (g : AccessGrid α) (start goal : Cell) (path : List Cell) : Prop where
  head : path.head? = some start
  last : path.getLast? = some goal
  steps : path.IsChain (g.Follows start)

theorem canonical_singleton (start : Cell) : g.Canonical start start [start] :=
  ⟨rfl, rfl, List.isChain_singleton start⟩

namespace Canonical

theorem snoc (h : g.Canonical start p path) (hc : g.Follows start p c) :
    g.Canonical start c (path ++ [c]) := by
  refine ⟨?_, List.getLast?_concat, ?_⟩
  · rw [List.head?_append, h.head, Option.some_or]
  · refine h.steps.append (List.isChain_singleton c) ?_
    simpa [h.last] using hc

/-- A canonical path is its start, or one step longer than another canonical path. -/
theorem cases_last (h : g.Canonical start c (cells ++ [c])) :
    (cells = [] ∧ c = start) ∨ ∃ p, g.Follows start p c ∧ g.Canonical start p cells := by
  by_cases hnil : cells = []
  · left
    subst hnil
    exact ⟨rfl, Option.some.inj h.head⟩
  · right
    obtain ⟨hcells, -, hstep⟩ := List.isChain_append.1 h.steps
    have hlast : cells.getLast? = some (cells.getLast hnil) := List.getLast?_eq_some_getLast hnil
    have hhead := h.head
    rw [List.head?_append_of_ne_nil _ hnil] at hhead
    exact ⟨_, hstep _ hlast c rfl, hhead, hlast, hcells⟩

/-- **There is only one canonical path** between two cells. -/
theorem unique (h : g.Canonical start goal path) (h' : g.Canonical start goal other) :
    path = other := by
  induction path using List.reverseRecOn generalizing goal other with
  | nil => simpa using h.head
  | append_singleton cells c ih =>
    obtain rfl : c = goal := by simpa using h.last
    -- the other path ends in the same cell
    have hne : other ≠ [] := by
      rintro rfl
      simpa using h'.head
    obtain ⟨cells', hother⟩ : ∃ cells', other = cells' ++ [c] := by
      refine ⟨other.dropLast, ?_⟩
      have hlast := h'.last
      rw [List.getLast?_eq_some_getLast hne] at hlast
      rw [← Option.some.inj hlast, List.dropLast_append_getLast hne]
    subst hother
    rcases h.cases_last with ⟨rfl, rfl⟩ | ⟨p, hp, hcells⟩ <;>
      rcases h'.cases_last with ⟨rfl, hc⟩ | ⟨q, hq, hcells'⟩
    · rfl
    · exact absurd hq not_follows_start
    · subst hc
      exact absurd hp not_follows_start
    · obtain rfl := hp.unique hq
      rw [ih hcells hcells']

end Canonical

/-! ### The way back -/

/-- The cells around a cell come column by column. -/
theorem around_pairwise (c : Cell) : (around c).Pairwise fun p q => p.place < q.place := by
  unfold around
  rw [List.pairwise_filterMap]
  simp only [List.pairwise_cons, List.mem_cons, List.not_mem_nil, or_false, forall_eq_or_imp,
    forall_eq, Cell.neighbor?, Cell.place_lt_iff]
  grind

/-- The first predecessor with a known distance is the foremost one. -/
theorem foremost_of_find? {reach : Reach} (hreach : ∀ c, g.contains c = true → ∀ k,
      reach.at? c = some k ↔ k ≤ m ∧ g.Distance start k c) (hn : n ≤ m)
    (h : (g.predecessors c).find? (fun p => reach.at? p == some n) = some p) :
    g.Foremost start n p c := by
  have hstep := mem_predecessors.1 (List.mem_of_find?_eq_some h)
  have hp : reach.at? p = some n := by simpa using List.find?_some h
  have hdistance := ((hreach p (contains_of_mem_successors hstep).1 n).1 hp).2
  refine ⟨hdistance, hstep, fun q hq hqstep => ?_⟩
  have hqreach := (hreach q (contains_of_mem_successors hqstep).1 n).2 ⟨hn, hq⟩
  -- `q` is not among the predecessors that were passed over, so it is `p` or comes later
  obtain ⟨-, passed, later, hsplit, hpassed⟩ := List.find?_eq_some_iff_append.1 h
  have hmem := mem_predecessors.2 hqstep
  have hsorted : (g.predecessors c).Pairwise fun p q => p.place < q.place :=
    (around_pairwise c).filter _
  rw [hsplit] at hmem hsorted
  rcases List.mem_append.1 hmem with hmem | hmem
  · simpa [hqreach] using hpassed q hmem
  rcases List.mem_cons.1 hmem with rfl | hmem
  · exact le_rfl
  · exact ((List.pairwise_cons.1 (List.pairwise_append.1 hsorted).2.1).1 q hmem).le

/-- **The way back** goes by foremost cells. -/
theorem wayBack_follows {reach : Reach} (hreach : ∀ c, g.contains c = true → ∀ k,
      reach.at? c = some k ↔ k ≤ m ∧ g.Distance start k c) (hn : n ≤ m)
    (hc : g.Distance start n c) {after : List Cell}
    (hafter : (c :: after).IsChain (g.Follows start)) :
    (g.wayBack reach n c after).IsChain (g.Follows start) := by
  induction n generalizing c after with
  | zero => exact hafter
  | succ n ih =>
    rw [wayBack]
    split
    · rename_i p hfind
      have hp := foremost_of_find? hreach (by omega) hfind
      exact ih (by omega) hp.distance (List.isChain_cons_cons.2 ⟨⟨n, hc, hp⟩, hafter⟩)
    · exact hafter

/-- **The shortest path that is found is the canonical one.** -/
theorem canonical_of_shortestPath (h : g.shortestPath start goal = some path) :
    g.Canonical start goal path := by
  obtain ⟨-, hshort⟩ := shortest_of_shortestPath h
  refine ⟨hshort.head, hshort.last, ?_⟩
  rw [shortestPath] at h
  split at h
  · rename_i hin
    rw [Bool.and_eq_true] at hin
    obtain ⟨m, hreach, -⟩ := reachFrom_spec hin.1 hin.2
    obtain ⟨n, hn, rfl⟩ := Option.map_eq_some_iff.1 h
    obtain ⟨hle, hdistance⟩ := (hreach goal hin.2 n).1 hn
    exact wayBack_follows hreach hle hdistance (List.isChain_singleton goal)
  · simp at h

/-- Where there is a way, the canonical path is found. -/
theorem shortestPath_eq_some (hs : g.contains start = true) (hway : g.Walk start n goal)
    (h : g.Canonical start goal path) : g.shortestPath start goal = some path := by
  obtain ⟨found, hfound⟩ := exists_shortestPath hs hway
  rw [hfound, (canonical_of_shortestPath hfound).unique h]

/-- No path is found where there is no way. -/
theorem shortestPath_eq_none (h : ∀ n, ¬g.Walk start n goal) :
    g.shortestPath start goal = none := by
  by_contra hsome
  obtain ⟨path, hpath⟩ := Option.ne_none_iff_exists'.1 hsome
  obtain ⟨n, -, hwalk⟩ := (shortest_of_shortestPath hpath).2.leads.walk
  exact h n hwalk

end AccessGrid

end Schematic
