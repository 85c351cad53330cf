import Schematic.Proofs.Inheriting

/-!
# Severed inheritance

A lookup never enters a style twice on one path. So where a style can be reached only by way of
another one, it makes no difference whether it inherits from that one: an edge that only closes
cycles can be cut.

* `StyleSheet.Lineage`: a line of styles, each of which inherits from the one behind it.
* `StyleSheet.sever`: the sheet in which one style no longer inherits from another.
* `StyleSheet.valueAlong_sever`: the value along a line keeps, if all lines to the severed style
  pass by the other one.
* `StyleSheet.resolve_sever`: so does what a style resolves to.
-/

namespace Schematic.StyleSheet

variable {α : Type} {sheet : StyleSheet α} {property : StyleProperty} {style : BoxStyle α}
  {path line : List String} {start goal id u v : String}

/-- A style of a sheet inherits from another style of the sheet. -/
def Inherits (sheet : StyleSheet α) (id parent : String) : Prop :=
  ∃ style, sheet.get? id = some style ∧ parent ∈ style.inherits ∧ sheet.contains parent = true

/-- **A line of styles** from one style to another: each inherits from the next one. -/
structure Lineage (sheet : StyleSheet α) (start goal : String) (line : List String) : Prop where
  known : sheet.contains start = true
  head : line.head? = some start
  last : line.getLast? = some goal
  steps : line.IsChain sheet.Inherits

theorem lineage_singleton (h : sheet.contains id = true) : sheet.Lineage id id [id] :=
  ⟨h, rfl, rfl, List.isChain_singleton id⟩

/-- A line goes on to what its last style inherits from. -/
theorem Lineage.snoc (h : sheet.Lineage start id line) (hstep : sheet.Inherits id goal) :
    sheet.Lineage start goal (line ++ [goal]) := by
  refine ⟨h.known, ?_, List.getLast?_concat, ?_⟩
  · rw [List.head?_append, h.head, Option.some_or]
  · refine h.steps.append (List.isChain_singleton goal) ?_
    simpa [h.last] using hstep

/-! ### The severed sheet -/

/-- A style that does not inherit from another one. -/
def severStyle (v : String) (style : BoxStyle α) : BoxStyle α :=
  { style with inherits := style.inherits.filter (· ≠ v) }

/-- **The sheet in which a style `u` does not inherit from `v`**, however often it did. -/
def sever (sheet : StyleSheet α) (u v : String) : StyleSheet α :=
  ⟨sheet.styles.modify u (severStyle v)⟩

theorem get?_sever : (sheet.sever u v).get? id =
    if u = id then (sheet.get? id).map (severStyle v) else sheet.get? id := by
  unfold get? sever
  simp only [Std.TreeMap.getElem?_modify, Std.LawfulEqCmp.compare_eq_iff_eq]
  by_cases hid : u = id
  · rw [if_pos hid, if_pos hid, hid]
  · rw [if_neg hid, if_neg hid]

theorem contains_sever : (sheet.sever u v).contains id = sheet.contains id := by
  rw [contains, contains, get?_sever]
  split
  · rw [Option.isSome_map]
  · rfl

/-- Leaving out a name that is on the path leaves the same styles to enter. -/
theorem entered_filter_ne {names : List String} (h : v ∈ path) :
    sheet.entered path (names.filter (· ≠ v)) = sheet.entered path names := by
  unfold entered
  rw [List.filter_filter]
  apply List.filter_congr
  intro x _
  by_cases hx : x = v
  · subst hx
    simp [h]
  · simp [hx]

/-- A style of the severed sheet sets what it did, and behind a path that passes by `v` it leads to
the same styles. -/
theorem exists_severed (hstyle : sheet.get? id = some style) :
    ∃ severed, (sheet.sever u v).get? id = some severed ∧
      (∀ property, severed.own property = style.own property) ∧
      ∀ path, (u = id → v ∈ path) →
        (sheet.sever u v).entered path severed.inherits = sheet.entered path style.inherits := by
  have hentered : ∀ path names,
      (sheet.sever u v).entered path names = sheet.entered path names := by
    intro path names
    unfold entered
    simp only [contains_sever]
  by_cases hid : u = id
  · refine ⟨severStyle v style, ?_, ?_, ?_⟩
    · rw [get?_sever, if_pos hid, hstyle, Option.map_some]
    · intro property
      cases property <;> rfl
    · intro path hpath
      rw [hentered, severStyle, entered_filter_ne (hpath hid)]
  · refine ⟨style, ?_, fun _ => rfl, fun path _ => hentered path _⟩
    rw [get?_sever, if_neg hid, hstyle]

/-! ### Lookups in the severed sheet -/

/-- **The value along a line keeps**, if every line from its first style to `u` passes by `v`. -/
theorem valueAlong_sever (h : ∀ line, sheet.Lineage start u line → v ∈ line)
    (hline : sheet.contains id = true → sheet.Lineage start id (path ++ [id])) :
    (sheet.sever u v).valueAlong property path id = sheet.valueAlong property path id := by
  induction path, id using valueAlong.induct sheet property with
  | case1 path id hunknown =>
    have hunknown' : (sheet.sever u v).get? id = none := by
      rw [get?_sever, hunknown, Option.map_none, ite_self]
    rw [valueAlong_unknown hunknown, valueAlong_unknown hunknown']
  | case2 path id style hstyle color hown =>
    obtain ⟨severed, hsevered, hsame, -⟩ := exists_severed (u := u) (v := v) hstyle
    rw [valueAlong_own hstyle hown, valueAlong_own hsevered ((hsame property).trans hown)]
  | case3 path id style hstyle hown ih =>
    obtain ⟨severed, hsevered, hsame, hentered⟩ := exists_severed (u := u) (v := v) hstyle
    have hreach := hline (contains_of_get? hstyle)
    -- the path up to here is a line, so it passes by `v` if it has come to `u`
    have hpass : u = id → v ∈ path ++ [id] := fun hid => h _ (hid ▸ hreach)
    rw [valueAlong_inherited hstyle hown,
      valueAlong_inherited hsevered ((hsame property).trans hown), hentered _ hpass]
    congr 1
    apply List.filterMap_congr
    intro parent hparent
    obtain ⟨hmem, hknown, -⟩ := mem_entered.1 hparent
    exact ih ⟨parent, hparent⟩ fun _ => hreach.snoc ⟨style, hstyle, hmem, hknown⟩

/-- **Edges that only close cycles make no difference.** If every line from a style to `u` passes by
`v`, the style resolves to the same whether or not `u` inherits from `v`. -/
theorem resolve_sever (h : ∀ line, sheet.Lineage id u line → v ∈ line) (property : StyleProperty) :
    (sheet.sever u v).resolve id property = sheet.resolve id property := by
  rw [resolve_eq_valueAlong, resolve_eq_valueAlong]
  exact valueAlong_sever h lineage_singleton

/-- Two ways lead on from the first style, and one of them goes round in a circle. -/
def circle : StyleSheet Rat :=
  [⟨"first", ["plain", "hub"], none, none⟩, ⟨"plain", [], none, none⟩,
    ⟨"hub", ["rim"], none, none⟩, ⟨"rim", ["red", "hub"], none, none⟩,
    ⟨"red", [], some (.primary true false false), none⟩].foldl insert empty

theorem circle_severed : circle.Lineage "first" "rim" ["first", "hub", "rim"] ∧
    (∀ line, circle.Lineage "first" "rim" line → "hub" ∈ line) ∧
    (circle.sever "rim" "hub").get? "rim" = some ⟨"rim", ["red"], none, none⟩ ∧
    (circle.sever "rim" "hub").resolve "first" .background = some (.primary true false false) := by
  have hhub : circle.get? "hub" = some ⟨"hub", ["rim"], none, none⟩ := by decide +kernel
  have hrim : circle.get? "rim" = some ⟨"rim", ["red", "hub"], none, none⟩ := by decide +kernel
  have hfirst : circle.get? "first" = some ⟨"first", ["plain", "hub"], none, none⟩ := by
    decide +kernel
  have hplain : circle.get? "plain" = some ⟨"plain", [], none, none⟩ := by decide +kernel
  -- a line that does not come to the hub stays at the first two styles
  have hlines : ∀ line, circle.Lineage "first" "rim" line → "hub" ∈ line := by
    intro line hline
    by_contra hhub
    have hstay : ∀ x ∈ line, x = "first" ∨ x = "plain" := by
      refine (List.IsChain.iff_mem.1 hline.steps).induction _ line ?_ ?_
      · rintro x y ⟨-, hy, style, hstyle, hmem, -⟩ (rfl | rfl)
        · obtain rfl := Option.some.inj (hfirst.symm.trans hstyle)
          simp only [List.mem_cons, List.not_mem_nil, or_false] at hmem
          rcases hmem with rfl | rfl
          · exact .inr rfl
          · exact absurd hy hhub
        · obtain rfl := Option.some.inj (hplain.symm.trans hstyle)
          simp at hmem
      · intro hne
        have hhead := hline.head
        rw [List.head?_eq_some_head hne] at hhead
        exact .inl (Option.some.inj hhead)
    have hlast := hstay "rim" (List.mem_of_getLast? hline.last)
    revert hlast
    decide
  have hround : circle.Lineage "first" "rim" ["first", "hub", "rim"] := by
    refine ⟨contains_of_get? hfirst, rfl, rfl, ?_⟩
    refine .cons_cons ⟨_, hfirst, by simp, contains_of_get? hhub⟩ ?_
    exact .cons_cons ⟨_, hhub, by simp, contains_of_get? hrim⟩ (.singleton _)
  refine ⟨hround, hlines, ?_, ?_⟩
  · rw [get?_sever, if_pos rfl, hrim]
    rfl
  · rw [resolve_sever hlines]
    decide +kernel

end Schematic.StyleSheet
