import Mathlib
import Schematic.Model.Style

/-!
# Inherited values

What a style inherits, said by recursion on the path of styles that led to it: a style that is
on the path already is not entered again, so every path ends.

* `StyleSheet.valueAlong`: the value of a style for a lookup that came along a path.
* `StyleSheet.search_cons`: the agenda of a lookup finds it, as long as the budget of a visit
  is no less than the number of styles that are not on its path.
* `StyleSheet.resolve_eq_valueAlong`: so it is the value that a style resolves to.
-/

namespace Schematic.StyleSheet

variable {α : Type} {sheet : StyleSheet α} {property : StyleProperty} {style : BoxStyle α}
  {color : Color α} {path names : List String} {id parent : String}

/-! ### Styles off a path -/

/-- The styles of a sheet that are not on a path. -/
def away (sheet : StyleSheet α) (path : List String) : List String :=
  sheet.styles.keys.filter (· ∉ path)

/-- Those of some names that a lookup may enter: there is a style of the name, and it is not on
the path. -/
def entered (sheet : StyleSheet α) (path names : List String) : List String :=
  names.filter fun name => sheet.contains name ∧ name ∉ path

theorem mem_keys : id ∈ sheet.styles.keys ↔ sheet.contains id = true := by
  rw [Std.TreeMap.mem_keys, contains, get?, Std.TreeMap.isSome_getElem?_iff_mem]

theorem contains_of_get? (h : sheet.get? id = some style) : sheet.contains id = true := by
  rw [contains, h, Option.isSome_some]

theorem mem_entered : parent ∈ sheet.entered path names ↔
    parent ∈ names ∧ sheet.contains parent = true ∧ parent ∉ path := by
  simp [entered]

/-- Every style that is entered leaves fewer to enter. -/
theorem length_away_lt (h : parent ∈ sheet.entered path names) :
    (sheet.away (path ++ [parent])).length < (sheet.away path).length := by
  obtain ⟨-, hknown, hpath⟩ := mem_entered.1 h
  have haway : sheet.away (path ++ [parent]) = (sheet.away path).filter (· ≠ parent) := by
    unfold away
    rw [List.filter_filter]
    apply List.filter_congr
    intro x _
    simp [and_comm]
  have hparent : parent ∈ sheet.away path :=
    List.mem_filter.2 ⟨mem_keys.2 hknown, decide_eq_true hpath⟩
  rw [haway, List.length_filter_lt_length_iff_exists]
  exact ⟨parent, hparent, by simp⟩

/-- A path of styles without repetition is no longer than the sheet. -/
theorem length_le_size (hnodup : path.Nodup) (hknown : ∀ x ∈ path, sheet.contains x = true) :
    path.length ≤ sheet.size := by
  have hsubset : path ⊆ sheet.styles.keys := fun x hx => mem_keys.2 (hknown x hx)
  have hle := (List.subperm_of_subset hnodup hsubset).length_le
  rwa [Std.TreeMap.length_keys] at hle

/-! ### The value along a path -/

/-- **The value of a property in a style** for a lookup that came along a path of styles. Where
the style has no value of its own, the last of the styles it inherits from that can be entered
and has a value gives it. -/
def valueAlong (sheet : StyleSheet α) (property : StyleProperty) (path : List String)
    (id : String) : Option (Color α) :=
  match sheet.get? id with
  | none => none
  | some style =>
    match style.own property with
    | some color => some color
    | none =>
      ((sheet.entered (path ++ [id]) style.inherits).attach.filterMap fun parent =>
        sheet.valueAlong property (path ++ [id]) parent.1).getLast?
termination_by (sheet.away (path ++ [id])).length
decreasing_by exact length_away_lt parent.2

theorem valueAlong_unknown (h : sheet.get? id = none) :
    sheet.valueAlong property path id = none := by
  unfold valueAlong
  rw [h]

theorem valueAlong_own (h : sheet.get? id = some style) (hown : style.own property = some color) :
    sheet.valueAlong property path id = some color := by
  unfold valueAlong
  rw [h]
  simp only [hown]

theorem valueAlong_inherited (h : sheet.get? id = some style) (hown : style.own property = none) :
    sheet.valueAlong property path id =
      ((sheet.entered (path ++ [id]) style.inherits).filterMap
        (sheet.valueAlong property (path ++ [id]))).getLast? := by
  conv_lhs => unfold valueAlong
  rw [h]
  simp only [hown]
  conv_rhs => rw [← List.attach_map_subtype_val (sheet.entered _ _), List.filterMap_map]
  rfl

/-! ### The agenda of a lookup -/

section Visits

variable {budget : ℕ} {rest : List Visit}

theorem search_of_mem (h : id ∈ path) :
    sheet.search property (⟨path, id, budget⟩ :: rest) = sheet.search property rest := by
  rw [search, if_pos h]

theorem search_of_unknown (h : sheet.get? id = none) :
    sheet.search property (⟨path, id, budget⟩ :: rest) = sheet.search property rest := by
  rw [search]
  split
  · rfl
  · split
    · rfl
    · rename_i style hstyle
      simp [h] at hstyle

theorem search_of_own (hid : id ∉ path) (h : sheet.get? id = some style)
    (hown : style.own property = some color) :
    sheet.search property (⟨path, id, budget⟩ :: rest) = some color := by
  rw [search, if_neg hid]
  split
  · rename_i hunknown
    simp [h] at hunknown
  · rename_i style' hstyle
    obtain rfl : style = style' := Option.some.inj (h.symm.trans hstyle)
    simp only [hown]

theorem search_of_inherits (hid : id ∉ path) (h : sheet.get? id = some style)
    (hown : style.own property = none) :
    sheet.search property (⟨path, id, budget + 1⟩ :: rest) =
      sheet.search property (parents style (id :: path) budget ++ rest) := by
  rw [search, if_neg hid]
  split
  · rename_i hunknown
    simp [h] at hunknown
  · rename_i style' hstyle
    obtain rfl : style = style' := Option.some.inj (h.symm.trans hstyle)
    simp only [hown]

end Visits

/-- Visits to names that a style inherits from find the last value among those that can be
entered, if each visit finds the value along its path. -/
theorem search_parents {budget : ℕ} (hvisit : ∀ parent ∈ sheet.entered path names, ∀ rest,
      sheet.search property (⟨path.reverse, parent, budget⟩ :: rest) =
        (sheet.valueAlong property path parent).or (sheet.search property rest))
    (rest : List Visit) :
    sheet.search property (names.reverse.map (⟨path.reverse, ·, budget⟩) ++ rest) =
      ((sheet.entered path names).filterMap (sheet.valueAlong property path)).getLast?.or
        (sheet.search property rest) := by
  -- the last name is visited first
  induction names using List.reverseRecOn with
  | nil => simp [entered]
  | append_singleton names name ih =>
    have hnames : ∀ parent ∈ sheet.entered path names,
        parent ∈ sheet.entered path (names ++ [name]) := by
      intro parent hparent
      unfold entered at hparent ⊢
      rw [List.filter_append]
      exact List.mem_append_left _ hparent
    have hrest := ih fun parent hparent => hvisit parent (hnames parent hparent)
    rw [List.reverse_append, List.reverse_singleton, List.singleton_append, List.map_cons,
      List.cons_append]
    by_cases henter : sheet.contains name = true ∧ name ∉ path
    · have hentered :
          sheet.entered path (names ++ [name]) = sheet.entered path names ++ [name] := by
        simp [entered, List.filter_append, henter]
      have hname : name ∈ sheet.entered path (names ++ [name]) := by
        rw [hentered]
        simp
      rw [hvisit name hname, hrest, hentered, List.filterMap_append, List.getLast?_append]
      cases hvalue : sheet.valueAlong property path name with
      | none => simp [hvalue]
      | some color => simp [hvalue]
    · have hentered : sheet.entered path (names ++ [name]) = sheet.entered path names := by
        unfold entered
        rw [List.filter_append]
        simp [henter]
      rw [hentered, ← hrest]
      by_cases hpath : name ∈ path
      · exact search_of_mem (List.mem_reverse.2 hpath)
      · have hunknown : sheet.get? name = none := by
          simpa [hpath, contains] using henter
        exact search_of_unknown hunknown

/-- **A visit finds the value along its path**, and the rest of the agenda is searched where there
is none. The budget is used up only when all styles are on the path. -/
theorem search_cons (hnodup : path.Nodup) (hknown : ∀ x ∈ path, sheet.contains x = true)
    (hid : id ∉ path) {budget : ℕ} (hbudget : sheet.size ≤ path.length + budget)
    (rest : List Visit) :
    sheet.search property (⟨path.reverse, id, budget⟩ :: rest) =
      (sheet.valueAlong property path id).or (sheet.search property rest) := by
  induction path, id using valueAlong.induct sheet property generalizing budget rest with
  | case1 path id hunknown =>
    rw [valueAlong_unknown hunknown, search_of_unknown hunknown, Option.none_or]
  | case2 path id style hstyle color hown =>
    have hvisited : id ∉ path.reverse := mt List.mem_reverse.1 hid
    rw [valueAlong_own hstyle hown, search_of_own hvisited hstyle hown, Option.some_or]
  | case3 path id style hstyle hown ih =>
    have hvisited : id ∉ path.reverse := mt List.mem_reverse.1 hid
    have hnodup' : (path ++ [id]).Nodup :=
      List.nodup_append.2 ⟨hnodup, List.nodup_singleton id, fun x hx y hy => by
        rw [List.mem_singleton.1 hy]
        exact ne_of_mem_of_not_mem hx hid⟩
    have hknown' : ∀ x ∈ path ++ [id], sheet.contains x = true := by
      intro x hx
      rcases List.mem_append.1 hx with hx | hx
      · exact hknown x hx
      · rw [List.mem_singleton.1 hx]
        exact contains_of_get? hstyle
    -- the path with this style on it is a path too, so there was a budget for this style
    have hlength := length_le_size hnodup' hknown'
    rw [List.length_append, List.length_singleton] at hlength
    obtain ⟨budget, rfl⟩ : ∃ n, budget = n + 1 := ⟨budget - 1, by omega⟩
    have hbudget' : sheet.size ≤ (path ++ [id]).length + budget := by
      rw [List.length_append, List.length_singleton]
      omega
    have hvisit : ∀ parent ∈ sheet.entered (path ++ [id]) style.inherits, ∀ rest,
        sheet.search property (⟨(path ++ [id]).reverse, parent, budget⟩ :: rest) =
          (sheet.valueAlong property (path ++ [id]) parent).or (sheet.search property rest) :=
      fun parent hparent =>
        ih ⟨parent, hparent⟩ hnodup' hknown' (mem_entered.1 hparent).2.2 hbudget'
    rw [valueAlong_inherited hstyle hown, search_of_inherits hvisited hstyle hown,
      ← search_parents hvisit, List.reverse_append, List.reverse_singleton, List.singleton_append]
    rfl

/-- **A style resolves to its value along the empty path.** -/
theorem resolve_eq_valueAlong (sheet : StyleSheet α) (id : String) (property : StyleProperty) :
    sheet.resolve id property = sheet.valueAlong property [] id := by
  have hbudget : sheet.size ≤ ([] : List String).length + sheet.size := by simp
  have hsearch : sheet.search property [⟨[].reverse, id, sheet.size⟩] =
      (sheet.valueAlong property [] id).or (sheet.search property []) :=
    search_cons List.nodup_nil (by simp) List.not_mem_nil hbudget []
  rw [List.reverse_nil, search, Option.or_none] at hsearch
  exact hsearch

end Schematic.StyleSheet
