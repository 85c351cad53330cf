import Schematic.Proofs.Building
import Schematic.Proofs.Naming

/-!
# Contents

What declarations say apart from where they stand and from the comments in them, and how the
model of a document follows from that: its styles, its boxes and its connectors.

* `Named.content`, `Connection.content`, `Equation.content`: declarations without places and
  comments.
* `DiagramBox.named`, `Named.box`: a box with the names of its variables.
* `Document.mem_styles_iff`, `Document.box?_named_iff`: the styles and the boxes of a model are
  those of the contents of its document.
-/

namespace Schematic

variable {α : Type}

/-! ### Declarations without places and comments -/

/-- The fields among the entries of a block, without the comments. -/
def Field.contents (entries : List (Located (Field α))) : List (Field α) :=
  (entries.map (·.value)).filter (·.key?.isSome)

namespace Field

/-- A fold over entries that ignores comments is one over the fields. -/
theorem foldl_contents {σ : Type} {say : σ → Field α → σ} (hcomment : ∀ s text, say s (.comment text) = s)
    (entries : List (Located (Field α))) (s : σ) :
    (contents entries).foldl say s = entries.foldl (fun s f => say s f.value) s := by
  unfold contents
  induction entries generalizing s with
  | nil => rfl
  | cons f entries ih =>
    rw [List.map_cons, List.filter_cons, List.foldl_cons, ← ih]
    obtain ⟨value, span⟩ := f
    cases value <;> simp [key?, hcomment]

theorem forall_contents {P : Field α → Prop} (hcomment : ∀ text, P (.comment text))
    (entries : List (Located (Field α))) : (∀ f ∈ contents entries, P f) ↔ ∀ f ∈ entries, P f.value := by
  simp only [contents, List.mem_filter, List.mem_map, and_imp, forall_exists_index,
    forall_apply_eq_imp_iff₂]
  refine forall₂_congr fun f _ => ⟨fun h => ?_, fun h _ => h⟩
  cases hvalue : f.value with
  | comment text => exact hcomment text
  | _ => exact hvalue ▸ h (by rw [hvalue]; rfl)

end Field

/-- The content of a declaration of a style or a box: its name and its fields. -/
def Named.content (declaration : Named α) : String × List (Field α) :=
  (declaration.name.value, Field.contents declaration.fields)

/-- The content of a connector: its ends and its fields. -/
def Connection.content (declaration : Connection α) : String × String × List (Field α) :=
  (declaration.source.value, declaration.target.value, Field.contents declaration.fields)

/-- The content of an equation: its relation and its sides. -/
def Equation.content (e : Equation α) : Equation α := { e with comment := none }

namespace Named

variable {m n : Named α}

theorem name_congr (h : m.content = n.content) : m.name.value = n.name.value :=
  congrArg Prod.fst h

theorem style_congr (h : m.content = n.content) : m.style = n.style := by
  obtain ⟨hname, hfields⟩ := Prod.mk.inj h
  unfold style
  rw [← Field.foldl_contents (fun _ _ => rfl), ← Field.foldl_contents (fun _ _ => rfl), hname, hfields]

theorem said_congr (h : m.content = n.content) : m.said = n.said := by
  obtain ⟨-, hfields⟩ := Prod.mk.inj h
  unfold said
  rw [← Field.foldl_contents (fun _ _ => rfl), ← Field.foldl_contents (fun _ _ => rfl), hfields]

theorem ownStyle?_congr (h : m.content = n.content) : m.ownStyle? = n.ownStyle? := by
  rw [ownStyle?, said_congr h, name_congr h, ownStyle?]

end Named

theorem Connection.arrow_congr [Scalar α] {c e : Connection α} (h : c.content = e.content) :
    c.arrow = e.arrow := by
  obtain ⟨hsource, hrest⟩ := Prod.mk.inj h
  obtain ⟨htarget, hfields⟩ := Prod.mk.inj hrest
  unfold arrow
  rw [← Field.foldl_contents (fun _ _ => rfl), ← Field.foldl_contents (fun _ _ => rfl), hsource,
    htarget, hfields]

/-! ### Boxes by the names of their variables -/

/-- A box and the names of the variables of its anchors. -/
structure NamedBox where
  id : String
  label : String
  style : Option String
  anchors : Anchor → String

/-- A box of a model, with the names in its table. -/
def DiagramBox.named (table : VariableTable) (b : DiagramBox) : NamedBox :=
  ⟨b.id, b.label, b.style, fun anchor => table.name (b.anchors.get anchor)⟩

/-- The box that a declaration declares. -/
def Named.box (declaration : Named α) : NamedBox :=
  ⟨declaration.name.value, declaration.label, declaration.drawnWith,
    Anchors.variableName declaration.name.value⟩

theorem Named.box_congr {m n : Named α} (h : m.content = n.content) : m.box = n.box := by
  simp only [box, label, drawnWith, said_congr h, name_congr h]

/-- The boxes of a model in the order of their names. -/
def Graph.namedBoxes (g : Graph α) : List NamedBox := g.boxList.map (·.named g.table)

/-! ### What a model holds -/

/-- Maps that have the same entries list them in the same order. -/
theorem toList_eq_of_getElem? {β : Type} {t₁ t₂ : Std.TreeMap String β}
    (h : ∀ k : String, t₁[k]? = t₂[k]?) : t₁.toList = t₂.toList :=
  (Std.TreeMap.Equiv.of_forall_constGet?_eq h).toList_eq

theorem StyleSheet.toList_eq {s₁ s₂ : StyleSheet α} (h : ∀ id, s₁.get? id = s₂.get? id) :
    s₁.toList = s₂.toList := by
  have hstyles : s₁.styles.toList = s₂.styles.toList := toList_eq_of_getElem? h
  rw [toList, hstyles, toList]

theorem Graph.boxList_map_eq {β : Type} {g₁ g₂ : Graph α} {f₁ f₂ : DiagramBox → β}
    (h : ∀ id, (g₁.box? id).map f₁ = (g₂.box? id).map f₂) :
    g₁.boxList.map f₁ = g₂.boxList.map f₂ := by
  have hlist : ∀ (g : Graph α) (f : DiagramBox → β),
      g.boxList.map f = (g.boxes.map fun _ => f).toList.map (·.2) := by
    intro g f
    rw [Std.TreeMap.toList_map, boxList, List.map_map, List.map_map]
    rfl
  rw [hlist, hlist]
  refine congrArg _ (toList_eq_of_getElem? fun id => ?_)
  rw [Std.TreeMap.getElem?_map, Std.TreeMap.getElem?_map]
  exact h id

/-- With distinct names, every style of a list is found in its sheet. -/
theorem StyleSheet.get?_ofList_iff {styles : List (BoxStyle α)} (hnodup : (styles.map (·.id)).Nodup)
    {id : String} {style : BoxStyle α} :
    (ofList styles).get? id = some style ↔ style ∈ styles ∧ style.id = id := by
  refine ⟨mem_of_get?_ofList, ?_⟩
  rintro ⟨hmem, rfl⟩
  have hfound : (ofList styles).contains style.id :=
    contains_ofList.2 (List.mem_map.2 ⟨style, hmem, rfl⟩)
  obtain ⟨style', hstyle'⟩ := Option.isSome_iff_exists.1 hfound
  obtain ⟨hmem', hid⟩ := mem_of_get?_ofList hstyle'
  rw [hstyle', List.inj_on_of_nodup_map hnodup hmem' hmem hid]

namespace Document

variable {d : Document α}

/-- The names of the styles in a sheet are distinct: those of a source have no `!`, and those of
boxes tell the boxes apart. -/
theorem WellReferenced.sheet_nodup (h : d.WellReferenced) (hnames : d.Lexical) :
    (d.sheet.map (·.id)).Nodup := by
  have hdeclared : (d.boxStyles.map (·.style)).map (·.id) = d.styleNames := by
    rw [List.map_map]
    exact List.map_congr_left fun s _ => s.style_plain.1
  have hown : ((d.boxes.filterMap (·.ownStyle?)).map (·.id)).Sublist (d.boxNames.map BoxStyle.ownId) := by
    unfold boxNames
    induction d.boxes with
    | nil => exact .slnil
    | cons b bs ih =>
      rw [List.filterMap_cons, Named.ownStyle?]
      split
      · exact ih.cons _
      · rename_i style hown
        obtain ⟨-, hstyle⟩ := Option.ite_none_right_eq_some.1 hown
        obtain rfl := Option.some.inj hstyle
        exact ih.cons_cons _
  rw [sheet, List.map_append, hdeclared, List.nodup_append']
  refine ⟨h.styles_nodup, ?_, ?_⟩
  · exact hown.nodup (h.boxes_nodup.map BoxStyle.ownId_injective)
  · intro id hstyle hbox
    obtain ⟨b, -, rfl⟩ := List.mem_map.1 (hown.subset hbox)
    obtain ⟨s, hs, hid⟩ := List.mem_map.1 hstyle
    have hname := (hnames.names s (List.mem_append_left _ hs)).1
    rw [hid] at hname
    exact BoxStyle.not_isName_ownId b hname

/-- **The boxes of a model**, by the names of their variables, are those that the document
declares. -/
theorem box?_named_iff [Scalar α] (hnames : d.Lexical) {diagram : Diagram α}
    (hbuild : d.build = .ok diagram) {id : String} {nb : NamedBox} :
    (diagram.graph.box? id).map (·.named diagram.graph.table) = some nb ↔
      ∃ b ∈ d.boxes, b.name.value = id ∧ b.box = nb := by
  have hnaming := build_naming hbuild
  obtain ⟨hreferenced, rfl⟩ := (build_eq_ok_iff hnames).1 hbuild
  have hbox : ∀ b', d.model.box? id = some b' → ∃ b ∈ d.boxes, b.name.value = id ∧
      b'.named d.model.table = b.box := by
    intro b' hb'
    obtain ⟨b, hb, hname, hid, hlabel, hstyle⟩ := exists_of_model_box? hb'
    refine ⟨b, hb, hname, ?_⟩
    simp only [DiagramBox.named, Named.box, hname, hid, hlabel, hstyle, NamedBox.mk.injEq, true_and]
    funext anchor
    exact VariableTable.name_eq (hnaming.boxes id b' hb' anchor)
  rw [Option.map_eq_some_iff]
  constructor
  · rintro ⟨b', hb', rfl⟩
    obtain ⟨b, hb, hname, heq⟩ := hbox b' hb'
    exact ⟨b, hb, hname, heq.symm⟩
  · rintro ⟨b, hb, rfl, rfl⟩
    have hfound : (d.model.box? b.name.value).isSome :=
      (hreferenced.closed.boxes _).2 (List.mem_map.2 ⟨b, hb, rfl⟩)
    obtain ⟨b', hb'⟩ := Option.isSome_iff_exists.1 hfound
    obtain ⟨b₀, hb₀, hname, heq⟩ := hbox b' hb'
    -- the names of boxes are distinct
    obtain rfl := List.inj_on_of_nodup_map hreferenced.boxes_nodup hb₀ hb hname
    exact ⟨b', hb', heq⟩

end Document

end Schematic
