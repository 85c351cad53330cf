import Schematic.Model.Lookup
import Schematic.Proofs.Inheriting

/-!
# Lookups by frames end

A frame on top of a lookup is finished with the value of its style along the path, and what lies
below it is as it was before. So every lookup ends, and the value that it ends with is the one that
the style resolves to.

* `Lookup.round_finish`, `Lookup.round_pass`, `Lookup.round_take`, `Lookup.round_enter`: the
  outcomes of a round.
* `Lookup.reaches_below`: a frame is finished with the value of its style along the path.
* `StyleSheet.lookup_ends`: every lookup ends, with the value that the style resolves to.
-/

namespace Schematic

open StateTransition

variable {α : Type}

theorem Frame.receive_eq (style : BoxStyle α) (next : ℕ) (resolved : Option (Color α))
    (finished : Option (Option (Color α))) :
    receive ⟨style, next, resolved⟩ finished = ⟨style, next, finished.join.or resolved⟩ := by
  rcases finished with _ | _ | value <;> rfl

namespace Lookup

variable {sheet : StyleSheet α} {property : StyleProperty} {style : BoxStyle α}
  {value : Option (Color α)} {finished : Option (Option (Color α))} {below : List (Frame α)}
  {path names : List String} {id parent : String} {next : ℕ}

/-! ### The outcomes of a round -/

theorem round_finish (h : style.inherits[next]? = none) :
    round sheet property ⟨path, ⟨style, next, value⟩ :: below, finished⟩ =
      some ⟨path.dropLast, below, some (finished.join.or value)⟩ := by
  simp only [round, Frame.receive_eq, h]

theorem round_pass (h : style.inherits[next]? = some parent)
    (hpass : parent ∈ path ∨ sheet.get? parent = none) :
    round sheet property ⟨path, ⟨style, next, value⟩ :: below, finished⟩ =
      some ⟨path, ⟨style, next + 1, finished.join.or value⟩ :: below, none⟩ := by
  simp only [round, Frame.receive_eq, h]
  rcases hpass with hpass | hpass
  · rw [if_pos hpass]
  · rw [hpass, ite_self]

theorem round_take {parentStyle : BoxStyle α} {color : Color α}
    (h : style.inherits[next]? = some parent) (hpath : parent ∉ path)
    (hparent : sheet.get? parent = some parentStyle)
    (hown : parentStyle.own property = some color) :
    round sheet property ⟨path, ⟨style, next, value⟩ :: below, finished⟩ =
      some ⟨path, ⟨style, next + 1, finished.join.or value⟩ :: below, some (some color)⟩ := by
  simp only [round, Frame.receive_eq, h, if_neg hpath, hparent, hown]

theorem round_enter {parentStyle : BoxStyle α} (h : style.inherits[next]? = some parent)
    (hpath : parent ∉ path) (hparent : sheet.get? parent = some parentStyle)
    (hown : parentStyle.own property = none) :
    round sheet property ⟨path, ⟨style, next, value⟩ :: below, finished⟩ =
      some ⟨path ++ [parent], .ofStyle parentStyle ::
        ⟨style, next + 1, finished.join.or value⟩ :: below, none⟩ := by
  simp only [round, Frame.receive_eq, h, if_neg hpath, hparent, hown]

/-! ### Whole lookups -/

/-- The last of the values that are found, with the values that were found before. -/
theorem getLast?_filterMap_cons (f : String → Option (Color α)) (names : List String) :
    ((parent :: names).filterMap f).getLast?.or value =
      (names.filterMap f).getLast?.or ((f parent).or value) := by
  rw [List.filterMap_cons]
  cases f parent with
  | none => rw [Option.none_or]
  | some color =>
    rw [List.getLast?_cons, Option.some_or, Option.some_or]
    cases (names.filterMap f).getLast? <;> rfl

/-- A frame is finished with the last value among the styles that it has still to look at, or
with the value it has if there is none, provided that a frame on top of it is finished with the
value of its style. -/
theorem reaches_dropLast (hnames : style.inherits.drop next = names)
    (henter : ∀ parent ∈ sheet.entered path style.inherits, ∀ parentStyle,
      sheet.get? parent = some parentStyle → parentStyle.own property = none →
      ∀ below, Reaches (round sheet property)
        ⟨path ++ [parent], .ofStyle parentStyle :: below, none⟩
        ⟨path, below, some (sheet.valueAlong property path parent)⟩) :
    Reaches (round sheet property) ⟨path, ⟨style, next, value⟩ :: below, finished⟩
      ⟨path.dropLast, below, some (((sheet.entered path names).filterMap
        (sheet.valueAlong property path)).getLast?.or (finished.join.or value))⟩ := by
  induction names generalizing next value finished with
  | nil =>
    have hend : style.inherits[next]? = none := by
      rw [← List.head?_drop, hnames, List.head?_nil]
    exact .single (round_finish hend)
  | cons parent rest ih =>
    have hnext : style.inherits[next]? = some parent := by
      rw [← List.head?_drop, hnames, List.head?_cons]
    have hrest : style.inherits.drop (next + 1) = rest := by
      rw [← List.tail_drop, hnames, List.tail_cons]
    by_cases hpass : parent ∈ path ∨ sheet.get? parent = none
    · have hentered : sheet.entered path (parent :: rest) = sheet.entered path rest := by
        refine List.filter_cons_of_neg ?_
        rw [StyleSheet.contains]
        rcases hpass with hpass | hpass <;> simp [hpass]
      rw [hentered]
      exact .head (round_pass hnext hpass) (ih hrest)
    · rw [not_or, ← ne_eq, Option.ne_none_iff_exists'] at hpass
      obtain ⟨hpath, parentStyle, hparent⟩ := hpass
      have hknown : sheet.contains parent = true := StyleSheet.contains_of_get? hparent
      have hentered : sheet.entered path (parent :: rest) = parent :: sheet.entered path rest :=
        List.filter_cons_of_pos (by simp [hknown, hpath])
      rw [hentered, getLast?_filterMap_cons]
      cases hown : parentStyle.own property with
      | some color =>
        rw [StyleSheet.valueAlong_own hparent hown]
        exact .head (round_take hnext hpath hparent hown) (ih hrest)
      | none =>
        -- the frame of the parent is finished first, and this one goes on with its value
        have hmem : parent ∈ style.inherits := List.mem_of_getElem? hnext
        have hframe := henter parent (StyleSheet.mem_entered.2 ⟨hmem, hknown, hpath⟩) parentStyle
          hparent hown (⟨style, next + 1, finished.join.or value⟩ :: below)
        exact .head (round_enter hnext hpath hparent hown) (hframe.trans (ih hrest))

/-- **A new frame is finished with the value of its style along the path**, and what lies below
it is as it was before. -/
theorem reaches_below (hstyle : sheet.get? id = some style) (hown : style.own property = none)
    (below : List (Frame α)) :
    Reaches (round sheet property) ⟨path ++ [id], .ofStyle style :: below, none⟩
      ⟨path, below, some (sheet.valueAlong property path id)⟩ := by
  induction path, id using StyleSheet.valueAlong.induct sheet property generalizing style below with
  | case1 path id hunknown => simp [hunknown] at hstyle
  | case2 path id other hother color hcolor =>
    obtain rfl : style = other := Option.some.inj (hstyle.symm.trans hother)
    simp [hown] at hcolor
  | case3 path id other hother hnone ih =>
    obtain rfl : style = other := Option.some.inj (hstyle.symm.trans hother)
    have hframe : Reaches (round sheet property) ⟨path ++ [id], ⟨style, 0, none⟩ :: below, none⟩
        ⟨(path ++ [id]).dropLast, below,
          some (((sheet.entered (path ++ [id]) style.inherits).filterMap
            (sheet.valueAlong property (path ++ [id]))).getLast?.or none)⟩ :=
      reaches_dropLast List.drop_zero fun parent hparent _ hget hown =>
        ih ⟨parent, hparent⟩ hget hown
    rw [Option.or_none, List.dropLast_concat] at hframe
    rw [StyleSheet.valueAlong_inherited hstyle hown]
    exact hframe

end Lookup

/-- **Every lookup ends, and gives what the recursion gives.** Whatever the styles inherit from
each other, the rounds of a lookup come to an end with the value of the style along the empty path,
and this is the value that the style resolves to. -/
theorem StyleSheet.lookup_ends (sheet : StyleSheet α) (id : String) (property : StyleProperty) :
    sheet.lookup property id = Part.some (sheet.valueAlong property [] id) ∧
      sheet.resolve id property = sheet.valueAlong property [] id := by
  refine ⟨?_, resolve_eq_valueAlong sheet id property⟩
  cases hroot : sheet.get? id with
  | none => rw [lookup, hroot, valueAlong_unknown hroot]
  | some root =>
    rw [lookup, hroot]
    cases hown : root.own property with
    | some color => simp only [hown, valueAlong_own hroot hown]
    | none =>
      have hreaches : Reaches (Lookup.round sheet property) (.start id root)
          ⟨[], [], some (sheet.valueAlong property [] id)⟩ := by
        rw [Lookup.start, ← List.nil_append [id]]
        exact Lookup.reaches_below hroot hown []
      have hlast := Part.eq_some_iff.2 (mem_eval.2 ⟨hreaches, rfl⟩)
      simp only [hown, hlast, Part.map_some, Option.join_some]

end Schematic
