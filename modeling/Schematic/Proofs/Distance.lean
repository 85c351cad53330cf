import Mathlib
import Schematic.Route.Path

/-!
# Distances in a grid

How many steps a cell is away from a start, said without any search, and that the layers
of a flood are the cells of one distance.

* `AccessGrid.Walk`, `AccessGrid.Distance`: a way of so many steps, and the least number
  of steps.
* `AccessGrid.Layers`: what a flood knows after `n` layers: the cells of distance at most
  `n` by their distance, and which of them are `n` steps away.
* `AccessGrid.layers_layer`, `AccessGrid.layers_flood`: one layer keeps this, and so does
  a whole flood, which ends only when the goal is known or out of reach.
-/

namespace Schematic.AccessGrid

variable {α : Type} {g : AccessGrid α} {start goal a b c : Cell} {n m k : ℕ}

/-! ### Steps -/

theorem contains_iff : g.contains c = true ↔ c.x < g.width ∧ c.y < g.height := by
  simp [contains]

theorem contains_of_allows {d : Direction} (h : (g.access c).allows d = true) :
    g.contains c = true := by
  by_contra hc
  rw [access, dif_neg hc] at h
  cases d <;> simp [Access.allows, Access.none] at h

/-- **One step of a route**: an allowed direction and a neighbour within the grid. -/
theorem mem_successors : b ∈ g.successors a ↔
    ∃ d, (g.access a).allows d = true ∧ a.neighbor? d = some b ∧ g.contains b = true := by
  simp only [successors, List.mem_filterMap, step?]
  constructor
  · rintro ⟨d, -, h⟩
    split at h
    · rename_i hd
      obtain ⟨hn, hb⟩ := Option.filter_eq_some_iff.1 h
      exact ⟨d, hd, hn, hb⟩
    · simp at h
  · rintro ⟨d, hd, hn, hb⟩
    exact ⟨d, by cases d <;> simp [Direction.all], by rw [if_pos hd, hn]; simp [hb]⟩

theorem contains_of_mem_successors (h : b ∈ g.successors a) :
    g.contains a = true ∧ g.contains b = true := by
  obtain ⟨d, hd, -, hb⟩ := mem_successors.1 h
  exact ⟨contains_of_allows hd, hb⟩

/-- The places of two cells of a grid in its rows differ. -/
theorem index_inj (ha : g.contains a = true) (hb : g.contains b = true)
    (h : a.y * g.width + a.x = b.y * g.width + b.x) : a = b := by
  have hxa := (contains_iff.1 ha).1
  have hxb := (contains_iff.1 hb).1
  have hw : 0 < g.width := by omega
  -- divided by the width, the place of a cell is its row
  have hy : a.y = b.y := by
    have := congrArg (· / g.width) h
    simpa [Nat.mul_comm _ g.width, Nat.mul_add_div hw, Nat.div_eq_of_lt hxa,
      Nat.div_eq_of_lt hxb] using this
  have hx : a.x = b.x := by rw [hy] at h; omega
  exact Cell.ext hx hy

/-! ### Walks and distances -/

/-- A cell is so many steps away from a start on some way. -/
inductive Walk (g : AccessGrid α) (start : Cell) : ℕ → Cell → Prop
  | here : Walk g start 0 start
  | step {n : ℕ} {a b : Cell} : Walk g start n a → b ∈ g.successors a → Walk g start (n + 1) b

/-- **The distance of a cell**: it is so many steps away, and no fewer. -/
structure Distance (g : AccessGrid α) (start : Cell) (n : ℕ) (c : Cell) : Prop where
  walk : g.Walk start n c
  least : ∀ m, g.Walk start m c → n ≤ m

theorem Distance.unique (hn : g.Distance start n c) (hm : g.Distance start m c) : n = m :=
  le_antisymm (hn.least m hm.walk) (hm.least n hn.walk)

theorem Distance.zero_iff : g.Distance start 0 c ↔ c = start := by
  constructor
  · intro h
    cases h.walk
    rfl
  · rintro rfl
    exact ⟨.here, fun m _ => Nat.zero_le m⟩

open Classical in
theorem Walk.distance (h : g.Walk start m c) : ∃ n ≤ m, g.Distance start n c :=
  have hex : ∃ n, g.Walk start n c := ⟨m, h⟩
  ⟨Nat.find hex, Nat.find_le h, Nat.find_spec hex, fun _ hk => Nat.find_le hk⟩

/-- A cell has a neighbour that is nearer by one step. -/
theorem Distance.pred (h : g.Distance start (n + 1) c) :
    ∃ a, g.Distance start n a ∧ c ∈ g.successors a := by
  cases h.walk with
  | @step _ a _ hw hs =>
    -- a shorter way to the cell before would make a shorter one to `c`
    refine ⟨a, ⟨hw, fun m hm => ?_⟩, hs⟩
    have := h.least (m + 1) (hm.step hs)
    omega

/-- Below a distance that occurs, every distance does. -/
theorem Distance.below (h : g.Distance start n c) (hk : k ≤ n) : ∃ a, g.Distance start k a := by
  induction n generalizing c with
  | zero => exact ⟨c, by rwa [Nat.le_zero.1 hk]⟩
  | succ n ih =>
    rcases Nat.eq_or_lt_of_le hk with rfl | hlt
    · exact ⟨c, h⟩
    · obtain ⟨a, ha, -⟩ := h.pred
      exact ih ha (by omega)

theorem Walk.contains (hs : g.contains start = true) (h : g.Walk start n c) :
    g.contains c = true := by
  cases h with
  | here => exact hs
  | step _ hb => exact (contains_of_mem_successors hb).2

/-- **Distances are less than the number of cells**, since cells of different distances
differ. -/
theorem Distance.lt_size (hs : g.contains start = true) (h : g.Distance start n c) :
    n < g.cells.size := by
  have : Nonempty Cell := ⟨start⟩
  -- one cell for each distance up to `n`, and no two of them in one place
  choose! f hf using fun k (hk : k ≤ n) => h.below hk
  have hc : ∀ k ≤ n, g.contains (f k) = true := fun k hk => (hf k hk).walk.contains hs
  let place : Fin (n + 1) → Fin g.cells.size := fun k =>
    ⟨(f k).y * g.width + (f k).x, index_lt (hc k (by omega))⟩
  have hinj : Function.Injective place := by
    intro i j hij
    have hcell := index_inj (hc i (by omega)) (hc j (by omega)) (Fin.mk.inj hij)
    have := (hf i (by omega)).unique (hcell ▸ hf j (by omega))
    exact Fin.ext this
  have := Fintype.card_le_of_injective place hinj
  simp only [Fintype.card_fin] at this
  omega

/-! ### What a flood has reached -/

/-- Steps are kept for every cell of a grid. -/
structure Fits (g : AccessGrid α) (r : Reach) : Prop where
  width : r.width = g.width
  size : r.steps.size = g.cells.size

theorem fits_empty : g.Fits (.empty g.width g.height) :=
  ⟨rfl, by simp [Reach.empty, g.size_cells]⟩

theorem Fits.set {r : Reach} (h : g.Fits r) : g.Fits (r.set c n) :=
  ⟨h.width, by simpa [Reach.set] using h.size⟩

theorem at?_empty : (Reach.empty g.width g.height).at? c = none := by
  simp only [Reach.at?, Reach.empty, Array.getD_eq_getD_getElem?, Array.getElem?_replicate]
  split <;> rfl

theorem Fits.at?_set {r : Reach} (h : g.Fits r) (ha : g.contains a = true)
    (hb : g.contains b = true) : (r.set a n).at? b = if a = b then some n else r.at? b := by
  have hlt : r.index a < r.steps.size := by
    rw [h.size, Reach.index, h.width]
    exact index_lt ha
  have hidx : r.index a = r.index b ↔ a = b := by
    rw [Reach.index, Reach.index, h.width]
    exact ⟨index_inj ha hb, fun h => by rw [h]⟩
  have hset : (r.set a n).index b = r.index b := rfl
  rw [Reach.at?, hset, Array.getD_eq_getD_getElem?]
  simp only [Reach.set, Array.getElem?_setIfInBounds, hidx, hlt, if_true]
  split
  · rfl
  · rw [Reach.at?, Array.getD_eq_getD_getElem?]

/-- Visiting cells marks those that were not marked, and lists them. -/
theorem foldl_visit {cells : List Cell} (hcells : ∀ c ∈ cells, g.contains c = true) {r : Reach}
    (hr : g.Fits r) (new : List Cell) :
    let out := cells.foldl (visit n) (r, new)
    g.Fits out.1 ∧
      (∀ c, g.contains c = true → ∀ k, out.1.at? c = some k ↔
        r.at? c = some k ∨ (r.at? c = none ∧ c ∈ cells ∧ k = n)) ∧
      ∀ c, c ∈ out.2 ↔ c ∈ new ∨ (c ∈ cells ∧ r.at? c = none) := by
  induction cells generalizing r new with
  | nil => simp [hr]
  | cons a rest ih =>
    have ha : g.contains a = true := hcells a (by simp)
    have hrest : ∀ c ∈ rest, g.contains c = true := fun c hc => hcells c (by simp [hc])
    simp only [List.foldl_cons]
    cases hat : r.at? a with
    | some j =>
      -- a cell that is marked is passed over, however often it comes
      obtain ⟨hfit, hmark, hnew⟩ := ih hrest hr new
      simp only [visit, hat]
      refine ⟨hfit, fun c hc k => ?_, fun c => ?_⟩
      · rw [hmark c hc k]
        by_cases hca : c = a <;> simp_all
      · rw [hnew c]
        by_cases hca : c = a <;> simp_all
    | none =>
      -- the first visit marks a cell, and later ones find it marked
      obtain ⟨hfit, hmark, hnew⟩ := ih hrest hr.set (a :: new)
      simp only [visit, hat]
      refine ⟨hfit, fun c hc k => ?_, fun c => ?_⟩
      · rw [hmark c hc k, hr.at?_set ha hc]
        by_cases hca : a = c
        · subst hca
          simp [hat, eq_comm]
        · simp [hca, Ne.symm hca]
      · rw [hnew c]
        by_cases hca : a = c
        · subst hca
          simp [hat]
        · by_cases hc : c ∈ rest
          · rw [hr.at?_set ha (hrest c hc)]
            simp [hca, Ne.symm hca]
          · simp [hc, Ne.symm hca]

/-- **What is known after `n` layers**: the distances up to `n`, and the cells that are
`n` steps away. -/
structure Layers (g : AccessGrid α) (start : Cell) (n : ℕ) (r : Reach) (front : List Cell) :
    Prop where
  fits : g.Fits r
  marked : ∀ c, g.contains c = true → ∀ k, r.at? c = some k ↔ k ≤ n ∧ g.Distance start k c
  front : ∀ c, c ∈ front ↔ g.Distance start n c

/-- At first only the start is known. -/
theorem layers_start (hs : g.contains start = true) :
    g.Layers start 0 ((Reach.empty g.width g.height).set start 0) [start] := by
  refine ⟨fits_empty.set, fun c hc k => ?_, fun c => ?_⟩
  · rw [fits_empty.at?_set hs hc, at?_empty]
    constructor
    · intro h
      split at h
      · rename_i hsc
        injection h with h
        subst h
        exact ⟨le_rfl, Distance.zero_iff.2 hsc.symm⟩
      · simp at h
    · rintro ⟨hk, hd⟩
      obtain rfl : k = 0 := Nat.le_zero.1 hk
      rw [if_pos (Distance.zero_iff.1 hd).symm]
  · rw [List.mem_singleton, Distance.zero_iff]

/-- The cells one step from the `n`-th layer that are not known yet are the next layer. -/
theorem Layers.fresh_iff {r : Reach} {front : List Cell} (h : g.Layers start n r front)
    (hc : g.contains c = true) :
    (c ∈ front.flatMap g.successors ∧ r.at? c = none) ↔ g.Distance start (n + 1) c := by
  constructor
  · rintro ⟨hmem, hnone⟩
    obtain ⟨a, ha, hstep⟩ := List.mem_flatMap.1 hmem
    refine ⟨((h.front a).1 ha).walk.step hstep, fun m hm => ?_⟩
    -- with a shorter way it would have been marked in an earlier layer
    by_contra hlt
    obtain ⟨k, hk, hd⟩ := hm.distance
    rw [(h.marked c hc k).2 ⟨by omega, hd⟩] at hnone
    simp at hnone
  · intro hd
    obtain ⟨a, ha, hstep⟩ := hd.pred
    refine ⟨List.mem_flatMap.2 ⟨a, (h.front a).2 ha, hstep⟩, ?_⟩
    cases hk : r.at? c with
    | none => rfl
    | some k =>
      obtain ⟨hle, hd'⟩ := (h.marked c hc k).1 hk
      have := hd.unique hd'
      omega

/-- **One layer** of a flood finds the cells that are one step further. -/
theorem layers_layer {r : Reach} {front : List Cell} (h : g.Layers start n r front) :
    g.Layers start (n + 1) (g.layer (n + 1) r front).1 (g.layer (n + 1) r front).2 := by
  have hcells : ∀ c ∈ front.flatMap g.successors, g.contains c = true := by
    intro c hc
    obtain ⟨a, -, hstep⟩ := List.mem_flatMap.1 hc
    exact (contains_of_mem_successors hstep).2
  obtain ⟨hfit, hmark, hnew⟩ := foldl_visit (n := n + 1) hcells h.fits []
  refine ⟨hfit, fun c hc k => ?_, fun c => ?_⟩
  · -- marks are from earlier layers or, with the number `n + 1`, from this one
    rw [layer, hmark c hc k, h.marked c hc k]
    constructor
    · rintro (⟨hle, hd⟩ | ⟨hnone, hmem, rfl⟩)
      · exact ⟨by omega, hd⟩
      · exact ⟨le_rfl, (h.fresh_iff hc).1 ⟨hmem, hnone⟩⟩
    · rintro ⟨hle, hd⟩
      rcases Nat.eq_or_lt_of_le hle with rfl | hlt
      · obtain ⟨hmem, hnone⟩ := (h.fresh_iff hc).2 hd
        exact Or.inr ⟨hnone, hmem, rfl⟩
      · exact Or.inl ⟨by omega, hd⟩
  · rw [layer, hnew c]
    simp only [List.not_mem_nil, false_or]
    constructor
    · intro hc
      exact (h.fresh_iff (hcells c hc.1)).1 hc
    · intro hd
      obtain ⟨a, -, hstep⟩ := hd.pred
      exact (h.fresh_iff (contains_of_mem_successors hstep).2).2 hd

/-- **A whole flood** ends after some layers: when the goal is known, when there is no
further layer, or when the number of layers is used up. -/
theorem layers_flood (goal : Cell) (fuel : ℕ) {r : Reach} {front : List Cell}
    (h : g.Layers start n r front) : ∃ m front',
      g.Layers start m (g.flood goal fuel n r front) front' ∧
        (((g.flood goal fuel n r front).at? goal).isSome = true ∨ front' = [] ∨ m = n + fuel) := by
  induction fuel generalizing n r front with
  | zero => exact ⟨n, front, h, Or.inr (Or.inr rfl)⟩
  | succ fuel ih =>
    rw [flood]
    split
    · rename_i hend
      simp only [Bool.or_eq_true, List.isEmpty_iff] at hend
      exact ⟨n, front, h, hend.symm.imp id Or.inl⟩
    · obtain ⟨m, front', hm, hend⟩ := ih (layers_layer h)
      exact ⟨m, front', hm, hend.imp id (Or.imp id fun h => by omega)⟩

/-- **What a flood from a start knows**: all distances up to some number, and that of the
goal if it can be reached. -/
theorem reachFrom_spec (hs : g.contains start = true) (hg : g.contains goal = true) :
    ∃ m, (∀ c, g.contains c = true → ∀ k,
        (g.reachFrom start goal).at? c = some k ↔ k ≤ m ∧ g.Distance start k c) ∧
      ∀ k, g.Distance start k goal → k ≤ m := by
  obtain ⟨m, front, h, hend⟩ := layers_flood goal g.cells.size (layers_start hs)
  refine ⟨m, h.marked, fun k hk => ?_⟩
  rcases hend with hgoal | hnil | hall
  · obtain ⟨j, hj⟩ := Option.isSome_iff_exists.1 hgoal
    obtain ⟨hle, hd⟩ := (h.marked goal hg j).1 hj
    rwa [hk.unique hd]
  · -- a goal further away would leave a cell in the last layer, which is empty
    by_contra hlt
    obtain ⟨a, ha⟩ := hk.below (k := m) (by omega)
    have := (h.front a).2 ha
    simp [hnil] at this
  · have := hk.lt_size hs
    omega

end Schematic.AccessGrid
