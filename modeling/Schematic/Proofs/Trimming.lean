import Schematic.Proofs.Exact
import Schematic.Route.Polyline

/-!
# Trimming a path

A path that begins in the source and ends in the target is cut where it first leaves the
one and where it last enters the other.

* `lastIndex?_eq_some_iff`: the number of the last element with a property.
* `Cut`: a path in five parts: up to the last cell before it leaves the source, the cells
  between, and the rest from the first cell after it enters the target for good.
* `cut_of_trim`, `exists_trim`: trimming finds a cut, and finds one if there is a cell
  outside the source before or at one outside the target.
-/

namespace Schematic

/-- **The last element with a property**: it has the property, and none behind it has. -/
theorem lastIndex?_eq_some_iff {β : Type} {p : β → Bool} {xs : List β} {i : ℕ} :
    lastIndex? p xs = some i ↔ ∃ h : i < xs.length, p xs[i] = true ∧
      ∀ j (hj : j < xs.length), i < j → p xs[j] = false := by
  simp only [lastIndex?, Option.map_eq_some_iff, List.findIdx?_eq_some_iff_getElem,
    List.length_reverse, List.getElem_reverse]
  constructor
  · rintro ⟨k, ⟨hk, hp, hall⟩, rfl⟩
    refine ⟨by omega, hp, fun j hj hlt => ?_⟩
    have := hall (xs.length - 1 - j) (by omega)
    simpa [show xs.length - 1 - (xs.length - 1 - j) = j by omega] using this
  · rintro ⟨hi, hp, hall⟩
    refine ⟨xs.length - 1 - i, ⟨by omega, ?_, fun j hj => ?_⟩, by omega⟩
    · simpa [show xs.length - 1 - (xs.length - 1 - i) = i by omega] using hp
    · simpa using hall (xs.length - 1 - j) (by omega) (by omega)

variable {g : AccessGrid Rat} {source target : Rect Rat} {path : List Cell} {t : Trimmed Rat}

/-- **A cut of a path** at the edges of source and target, and the line between them. The
cell `a` is the last one before the path leaves the source, and `b` the first one after it
enters the target. -/
structure Cut (g : AccessGrid Rat) (source target : Rect Rat) (path : List Cell)
    (t : Trimmed Rat) (a b : Cell) (between : List Cell) : Prop where
  parts : ∃ before after, path = before ++ a :: between ++ b :: after
  leaves : ∃ c ∈ between.head?, source.holds (g.center a) = true ∧
    source.holds (g.center c) = false ∧
    t.start = edgeCrossing source (g.center a) (.between a c) true
  interior : t.interior = between.map g.center
  enters : ∃ c ∈ between.getLast?, target.holds (g.center c) = false ∧
    target.holds (g.center b) = true ∧
    t.stop = edgeCrossing target (g.center b) (.between c b) false

/-- The cells up to a number, the one with that number, and those up to another one. -/
theorem path_eq_parts {i j : ℕ} (hij : i + 1 ≤ j) (hj : j + 1 < path.length) :
    path = path.take i ++ path[i] :: (path.take (j + 1)).drop (i + 1) ++
      path[j + 1] :: path.drop (j + 2) := by
  have hfront : path.take (j + 1) = path.take i ++ path[i] :: (path.take (j + 1)).drop (i + 1) := by
    have hlen : i < (path.take (j + 1)).length := by rw [List.length_take]; omega
    have h := List.take_append_drop i (path.take (j + 1))
    rw [List.drop_eq_getElem_cons hlen, List.getElem_take, List.take_take,
      min_eq_left (by omega)] at h
    exact h.symm
  rw [← hfront, ← List.drop_eq_getElem_cons hj, List.take_append_drop]

/-- **Trimming** a path whose first cell outside the source has the number `i + 1` and
whose last cell outside the target has the number `j`. -/
theorem trim_eq {i j : ℕ} (hleave : path.findIdx? (fun c => !source.holds (g.center c)) = some (i + 1))
    (henter : lastIndex? (fun c => !target.holds (g.center c)) path = some j)
    (hij : i + 1 ≤ j) (hj : j + 1 < path.length) :
    trim g path source target = some
      { start := edgeCrossing source (g.center path[i]) (.between path[i] path[i + 1]) true
        interior := ((path.take (j + 1)).drop (i + 1)).map g.center
        stop := edgeCrossing target (g.center path[j + 1]) (.between path[j] path[j + 1]) false } := by
  have hjl : j < path.length := by omega
  have hil : i < path.length := by omega
  have hil' : i + 1 < path.length := by omega
  simp [trim, hleave, henter, Trimmed.leaving, Trimmed.entering, hj, hjl, hil, hil']
  omega

/-- The first cell lies in the source, and the last one in the target. -/
structure Joins (g : AccessGrid Rat) (source target : Rect Rat) (path : List Cell) : Prop where
  first : ∃ c ∈ path.head?, source.holds (g.center c) = true
  last : ∃ c ∈ path.getLast?, target.holds (g.center c) = true

namespace Joins

/-- A path that begins in the source does not leave it before its first cell. -/
theorem leave_pos (h : Joins g source target path) {k : ℕ}
    (hk : path.findIdx? (fun c => !source.holds (g.center c)) = some k) : ∃ i, k = i + 1 := by
  obtain ⟨hlt, hout, -⟩ := List.findIdx?_eq_some_iff_getElem.1 hk
  cases k with
  | zero =>
    obtain ⟨c, hc, hin⟩ := h.first
    rw [List.head?_eq_getElem?, List.getElem?_eq_getElem hlt] at hc
    obtain rfl : path[0] = c := by simpa using hc
    simp [hin] at hout
  | succ i => exact ⟨i, rfl⟩

/-- A path that ends in the target enters it before its last cell. -/
theorem enter_lt (h : Joins g source target path) {j : ℕ}
    (hj : lastIndex? (fun c => !target.holds (g.center c)) path = some j) :
    j + 1 < path.length := by
  obtain ⟨hlt, hout, -⟩ := lastIndex?_eq_some_iff.1 hj
  by_contra hge
  obtain ⟨c, hc, hin⟩ := h.last
  rw [List.getLast?_eq_getElem?, show path.length - 1 = j by omega,
    List.getElem?_eq_getElem hlt] at hc
  obtain rfl : path[j] = c := by simpa using hc
  simp [hin] at hout

end Joins

/-- **Where a path is trimmed**: before its first cell outside the source, and after its last cell
outside the target. -/
theorem exists_of_trim (hjoin : Joins g source target path)
    (h : trim g path source target = some t) : ∃ i j, i + 1 ≤ j ∧ j + 1 < path.length ∧
      path.findIdx? (fun c => !source.holds (g.center c)) = some (i + 1) ∧
      lastIndex? (fun c => !target.holds (g.center c)) path = some j := by
  simp only [trim, Option.bind_eq_bind, Option.bind_eq_some_iff] at h
  obtain ⟨k, hleave, j, henter, hkj⟩ := h
  -- a cut the other way round would have been refused
  have hle : k ≤ j := by
    by_contra hlt
    rw [if_pos (by omega)] at hkj
    simp at hkj
  obtain ⟨i, rfl⟩ := hjoin.leave_pos hleave
  exact ⟨i, j, hle, hjoin.enter_lt henter, hleave, henter⟩

/-- **What trimming finds is a cut** of the path: all that comes before lies in the source, and all
that comes after in the target. -/
theorem cut_of_trim (hjoin : Joins g source target path) (h : trim g path source target = some t) :
    ∃ before a between b after, path = before ++ a :: between ++ b :: after ∧
      Cut g source target path t a b between ∧
      (∀ c ∈ before ++ [a], source.holds (g.center c) = true) ∧
      ∀ c ∈ b :: after, target.holds (g.center c) = true := by
  obtain ⟨i, j, hij, hj, hleave, henter⟩ := exists_of_trim hjoin h
  rw [trim_eq hleave henter hij hj, Option.some.injEq] at h
  subst h
  obtain ⟨hi', hout, hin⟩ := List.findIdx?_eq_some_iff_getElem.1 hleave
  obtain ⟨hj', hout', hin'⟩ := lastIndex?_eq_some_iff.1 henter
  have hsource : ∀ c ∈ path.take i ++ [path[i]], source.holds (g.center c) = true := by
    rw [List.take_append_getElem]
    intro c hc
    obtain ⟨k, hk, rfl⟩ := List.mem_take_iff_getElem.1 hc
    simpa using hin k (by omega)
  have htarget : ∀ c ∈ path[j + 1] :: path.drop (j + 2), target.holds (g.center c) = true := by
    rw [← List.drop_eq_getElem_cons hj]
    intro c hc
    obtain ⟨k, hk, rfl⟩ := List.mem_drop_iff_getElem.1 hc
    simpa using hin' (j + 1 + k) (by omega) (by omega)
  refine ⟨_, _, _, _, _, path_eq_parts hij hj, ⟨⟨_, _, path_eq_parts hij hj⟩,
    ⟨path[i + 1], ?_, hsource _ List.mem_concat_self, by simpa using hout, rfl⟩, rfl,
    ⟨path[j], ?_, by simpa using hout', htarget _ List.mem_cons_self, rfl⟩⟩, hsource, htarget⟩
  · rw [List.head?_drop, List.getElem?_take, if_pos (by omega), List.getElem?_eq_getElem]
    rfl
  · rw [List.getLast?_drop, List.length_take, if_neg (by omega), List.getLast?_take]
    simp [hj']

/-- **There is a cut** if some cell outside the source does not come after some cell outside
the target. -/
theorem exists_trim (hjoin : Joins g source target path) {i j : ℕ} (hij : i ≤ j)
    (hi : ∃ c ∈ path[i]?, source.holds (g.center c) = false)
    (hj : ∃ c ∈ path[j]?, target.holds (g.center c) = false) :
    ∃ t, trim g path source target = some t := by
  obtain ⟨c, hc, hout⟩ := hi
  obtain ⟨d, hd, hout'⟩ := hj
  obtain ⟨hil, rfl⟩ := List.getElem?_eq_some_iff.1 hc
  obtain ⟨hjl, rfl⟩ := List.getElem?_eq_some_iff.1 hd
  -- the first cell outside the source comes no later than the one that is given
  obtain ⟨k, hleave, hki⟩ : ∃ k,
      path.findIdx? (fun c => !source.holds (g.center c)) = some k ∧ k ≤ i := by
    cases hfind : path.findIdx? fun c => !source.holds (g.center c) with
    | none =>
      have := List.findIdx?_eq_none_iff.1 hfind _ (List.getElem_mem hil)
      simp [hout] at this
    | some k =>
      refine ⟨k, rfl, ?_⟩
      obtain ⟨_, _, hin⟩ := List.findIdx?_eq_some_iff_getElem.1 hfind
      by_contra hlt
      have := hin i (by omega)
      simp [hout] at this
  -- and the last cell outside the target no earlier
  obtain ⟨m, henter, hjm⟩ : ∃ m,
      lastIndex? (fun c => !target.holds (g.center c)) path = some m ∧ j ≤ m := by
    cases hfind : lastIndex? (fun c => !target.holds (g.center c)) path with
    | none =>
      rw [lastIndex?, Option.map_eq_none_iff] at hfind
      have := List.findIdx?_eq_none_iff.1 hfind _ (List.mem_reverse.2 (List.getElem_mem hjl))
      simp [hout'] at this
    | some m =>
      refine ⟨m, rfl, ?_⟩
      obtain ⟨_, _, hin⟩ := lastIndex?_eq_some_iff.1 hfind
      by_contra hlt
      have := hin j hjl (by omega)
      simp [hout'] at this
  obtain ⟨n, rfl⟩ := hjoin.leave_pos hleave
  exact ⟨_, trim_eq hleave henter (by omega) (hjoin.enter_lt henter)⟩

end Schematic
