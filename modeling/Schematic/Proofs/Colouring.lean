import Schematic.Proofs.Content
import Schematic.Proofs.Inheriting

/-!
# Colours of boxes

What colours a box is drawn with, said by its fields alone. Of several fields that say the same
thing the last one counts, and what a box does not set itself it takes from the style that it
names. So it makes no difference whether a box shares that style or has one of its own.

* `Field.last?`: what the last field of a kind says.
* `Document.boxColor?`: the colour of a box, said by its own fields and those of one style.
* `Document.WellReferenced.resolve_box`: the style of a box resolves to it.
* `build_colors`: the colours of all boxes of a source.
-/

namespace Schematic

variable {α : Type}

/-! ### The last field of a kind -/

namespace Field

variable {β σ : Type}

/-- The colour that a field gives to a property. -/
def color? : StyleProperty → Field α → Option (Color α)
  | .background, .background color => some color
  | .text, .textColor color => some color
  | _, _ => none

/-- The style that a field names. -/
def style? : Field α → Option String
  | .style name => some name
  | _ => none

/-- What the last field of a kind says. -/
def last? (kind : Field α → Option β) (fields : List (Located (Field α))) : Option β :=
  (fields.filterMap fun f => kind f.value).getLast?

/-- **Later fields replace earlier ones**, so what was said in the end is what the last one says. -/
theorem foldl_last? (told : σ → Option β) {say : σ → Field α → σ} {kind : Field α → Option β}
    (hsay : ∀ s f, told (say s f) = (kind f).or (told s)) (fields : List (Located (Field α)))
    (s : σ) :
    told (fields.foldl (fun s f => say s f.value) s) = (last? kind fields).or (told s) := by
  induction fields using List.reverseRecOn with
  | nil => rfl
  | append_singleton fields f ih =>
    rw [List.foldl_append, List.foldl_cons, List.foldl_nil, hsay, ih, last?, last?,
      List.filterMap_append, List.getLast?_append]
    cases hkind : kind f.value with
    | none => simp [hkind]
    | some b => simp [hkind]

end Field

namespace Named

variable (declaration : Named α) (property : StyleProperty)

/-- The colour that a declaration sets itself, last of all. -/
def color? : Option (Color α) := Field.last? (Field.color? property) declaration.fields

/-- The style that a declaration names, last of all. -/
def namedStyle? : Option String := Field.last? Field.style? declaration.fields

theorem own_style : declaration.style.own property = declaration.color? property := by
  have hsay : ∀ (style : BoxStyle α) f,
      (style.say f).own property = (f.color? property).or (style.own property) := by
    intro style f
    cases property <;> cases f <;> rfl
  rw [style, Field.foldl_last? (fun style : BoxStyle α => style.own property) hsay]
  cases property <;> exact Option.or_none

/-- The style of its own that a box would get sets what the box sets. -/
theorem own_ownStyle (id : String) :
    (declaration.said.ownStyle id).own property = declaration.color? property := by
  have hsay : ∀ (said : BoxFields α) f, ((said.say f).ownStyle id).own property =
      (f.color? property).or ((said.ownStyle id).own property) := by
    intro said f
    cases property <;> cases f <;> rfl
  rw [said, Field.foldl_last? (fun said : BoxFields α => (said.ownStyle id).own property) hsay]
  cases property <;> exact Option.or_none

theorem said_style : declaration.said.style = declaration.namedStyle? := by
  have hsay : ∀ (said : BoxFields α) f, (said.say f).style = f.style?.or said.style := by
    intro said f
    cases f <;> rfl
  rw [said, Field.foldl_last? BoxFields.style hsay]
  exact Option.or_none

/-- A box that gets no style of its own sets no colour. -/
theorem color?_of_not_setsColor (h : ¬declaration.said.setsColor) :
    declaration.color? property = none := by
  rw [BoxFields.setsColor, Bool.or_eq_true, not_or, Bool.not_eq_true, Bool.not_eq_true,
    Option.isSome_eq_false_iff, Option.isSome_eq_false_iff, Option.isNone_iff_eq_none,
    Option.isNone_iff_eq_none] at h
  rw [← declaration.own_ownStyle property ""]
  cases property with
  | background => exact h.1
  | text => exact h.2

end Named

/-! ### What styles resolve to -/

namespace StyleSheet

variable {sheet : StyleSheet α} {property : StyleProperty} {style : BoxStyle α} {id parent : String}
  {path : List String}

/-- A style that inherits from no other has its own values. -/
theorem valueAlong_of_inherits_nil (h : sheet.get? id = some style) (hnil : style.inherits = []) :
    sheet.valueAlong property path id = style.own property := by
  cases hown : style.own property with
  | some color => exact valueAlong_own h hown
  | none =>
    rw [valueAlong_inherited h hown, hnil]
    rfl

/-- A style that inherits from one other has its own values, and where it has none those of the
other one. -/
theorem valueAlong_of_inherits_singleton (h : sheet.get? id = some style)
    (hone : style.inherits = [parent]) (hparent : sheet.contains parent = true)
    (hpath : parent ∉ path ++ [id]) : sheet.valueAlong property path id =
      (style.own property).or (sheet.valueAlong property (path ++ [id]) parent) := by
  cases hown : style.own property with
  | some color =>
    rw [Option.some_or]
    exact valueAlong_own h hown
  | none =>
    have hentered : sheet.entered (path ++ [id]) [parent] = [parent] :=
      List.filter_cons_of_pos (decide_eq_true ⟨hparent, hpath⟩)
    rw [valueAlong_inherited h hown, hone, hentered, Option.none_or, List.filterMap_cons]
    cases sheet.valueAlong property (path ++ [id]) parent <;> rfl

end StyleSheet

/-! ### The colours of a document -/

namespace Document

variable {d : Document α} {property : StyleProperty} {name : String}

/-- The colour that the box style of a name sets, if there is one. -/
def styleColor? (d : Document α) (property : StyleProperty) (name : String) : Option (Color α) :=
  (d.boxStyles.find? (·.name.value == name)).bind (·.color? property)

/-- **The colour of a box**: the last one that it sets itself, else the last one that is set by the
style it names last. -/
def boxColor? (d : Document α) (property : StyleProperty) (box : Named α) : Option (Color α) :=
  (box.color? property).or (box.namedStyle?.bind (d.styleColor? property))

namespace WellReferenced

variable {box style : Named α}

/-- The style that a box names is declared. -/
theorem exists_style (h : d.WellReferenced) (hbox : box ∈ d.boxes)
    (hname : box.said.style = some name) : ∃ style ∈ d.boxStyles, style.name.value = name := by
  obtain ⟨f, hf, hvalue⟩ := Named.mem_of_said_style hname
  have hfield := h.box_fields box hbox f hf
  rw [hvalue] at hfield
  exact List.mem_map.1 hfield

variable [Scalar α]

/-- A style that is declared is found under its name. -/
theorem get?_style (h : d.WellReferenced) (hnames : d.Lexical) (hstyle : style ∈ d.boxStyles) :
    d.model.styles.get? style.name.value = some style.style := by
  rw [d.model_styles, StyleSheet.get?_ofList_iff (h.sheet_nodup hnames)]
  exact ⟨List.mem_append_left _ (List.mem_map_of_mem hstyle), style.style_plain.1⟩

/-- The style of its own that a box gets is found under its name. -/
theorem get?_ownStyle (h : d.WellReferenced) (hnames : d.Lexical) (hbox : box ∈ d.boxes)
    (hcolor : box.said.setsColor) : d.model.styles.get? (BoxStyle.ownId box.name.value) =
      some (box.said.ownStyle box.name.value) := by
  rw [d.model_styles, StyleSheet.get?_ofList_iff (h.sheet_nodup hnames)]
  exact ⟨List.mem_append_right _ (List.mem_filterMap.2 ⟨box, hbox, if_pos hcolor⟩), rfl⟩

/-- **A declared style** has the last colour that it sets, however a lookup comes to it. -/
theorem valueAlong_style (h : d.WellReferenced) (hnames : d.Lexical) (hstyle : style ∈ d.boxStyles)
    (path : List String) : d.model.styles.valueAlong property path style.name.value =
      d.styleColor? property style.name.value := by
  have hfound : d.boxStyles.find? (·.name.value == style.name.value) = some style := by
    obtain ⟨other, hother⟩ : ∃ other, d.boxStyles.find? (·.name.value == style.name.value) =
        some other := Option.isSome_iff_exists.1 (List.find?_isSome.2 ⟨style, hstyle, by simp⟩)
    have hname : other.name.value = style.name.value := by simpa using List.find?_some hother
    rw [hother, List.inj_on_of_nodup_map h.styles_nodup (List.mem_of_find?_eq_some hother) hstyle
      hname]
  rw [StyleSheet.valueAlong_of_inherits_nil (h.get?_style hnames hstyle) style.style_plain.2,
    style.own_style, styleColor?, hfound, Option.bind_some]

/-- **A box has its colour**, whether it gets a style of its own or shares the one that it names. -/
theorem resolve_box (h : d.WellReferenced) (hnames : d.Lexical) (hbox : box ∈ d.boxes) :
    (box.drawnWith.bind fun id => d.model.styles.resolve id property) =
      d.boxColor? property box := by
  simp only [StyleSheet.resolve_eq_valueAlong, boxColor?, ← box.said_style]
  by_cases hcolor : box.said.setsColor
  · have hown := h.get?_ownStyle hnames hbox hcolor
    have hid : box.drawnWith = some (BoxStyle.ownId box.name.value) := if_pos hcolor
    rw [hid, Option.bind_some, ← box.own_ownStyle property box.name.value]
    cases hname : box.said.style with
    | none =>
      have hinherits : (box.said.ownStyle box.name.value).inherits = [] := by
        rw [BoxFields.ownStyle, hname]
        rfl
      rw [StyleSheet.valueAlong_of_inherits_nil hown hinherits, Option.bind_none, Option.or_none]
    | some name =>
      have hinherits : (box.said.ownStyle box.name.value).inherits = [name] := by
        rw [BoxFields.ownStyle, hname]
        rfl
      obtain ⟨style, hstyle, rfl⟩ := h.exists_style hbox hname
      have hknown := StyleSheet.contains_of_get? (h.get?_style hnames hstyle)
      -- the style is not the box's own, since its name is one of the language
      have hapart : style.name.value ∉ [] ++ [BoxStyle.ownId box.name.value] := by
        rw [List.nil_append, List.mem_singleton]
        intro heq
        have hisName := (hnames.names style (List.mem_append_left _ hstyle)).1
        rw [heq] at hisName
        exact BoxStyle.not_isName_ownId _ hisName
      rw [StyleSheet.valueAlong_of_inherits_singleton hown hinherits hknown hapart,
        h.valueAlong_style hnames hstyle, Option.bind_some]
  · have hid : box.drawnWith = box.said.style := if_neg hcolor
    rw [hid, box.color?_of_not_setsColor property hcolor, Option.none_or]
    cases hname : box.said.style with
    | none => rfl
    | some name =>
      obtain ⟨style, hstyle, rfl⟩ := h.exists_style hbox hname
      rw [Option.bind_some, Option.bind_some, h.valueAlong_style hnames hstyle]

end WellReferenced

end Document

section Sources

variable [Scalar α] [Numeral α] {source : String} {d : Document α} {diagram : Diagram α}

/-- **The colours of boxes.** The boxes of a diagram that was read are the declared ones, and each
of them is drawn with the last background and the last text colour that it sets itself; where it
sets none, with the last one of the box style that it names last. -/
theorem build_colors (hread : parse source = .ok d) (hbuild : d.build = .ok diagram) :
    (∀ id, (diagram.graph.box? id).isSome ↔ id ∈ d.boxNames) ∧
      ∀ box ∈ d.boxes, ∃ b, diagram.graph.box? box.name.value = some b ∧
        diagram.graph.styles.resolved b.style =
          ⟨d.boxColor? .background box, d.boxColor? .text box⟩ := by
  have hnames := parse_lexical hread
  obtain ⟨hreferenced, rfl⟩ := (Document.build_eq_ok_iff hnames).1 hbuild
  refine ⟨hreferenced.closed.boxes, fun box hbox => ?_⟩
  obtain ⟨b, hb⟩ := Option.isSome_iff_exists.1
    ((hreferenced.closed.boxes box.name.value).2 (List.mem_map_of_mem hbox))
  obtain ⟨other, hother, hname, -, -, hstyle⟩ := Document.exists_of_model_box? hb
  -- the names of boxes are distinct
  obtain rfl := List.inj_on_of_nodup_map hreferenced.boxes_nodup hother hbox hname
  refine ⟨b, hb, ?_⟩
  simp only [← hreferenced.resolve_box hnames hbox, hstyle]
  cases other.drawnWith <;> rfl

/-- Boxes that set one colour, both or none, some of them twice, with a style that is named twice
and one that is declared later. -/
def motley : String :=
  "box a \x7b background-color: red; style: t; text-color: blue; " ++
    "background-color: green; style: s \x7d\n" ++
    "box b \x7b style: s; text-color: white \x7d\nbox c \x7b style: s \x7d\nbox d\n" ++
    "box-style s \x7b background-color: cyan; text-color: red; background-color: yellow \x7d\n" ++
    "box-style t \x7b text-color: black \x7d"

theorem motley_colors : ∃ (d : Document FixedPoint) (diagram : Diagram FixedPoint),
    parse motley = .ok d ∧ d.build = .ok diagram ∧
      d.boxes.map (fun box => (d.boxColor? .background box, d.boxColor? .text box)) =
        [(Color.ofName? "green", Color.ofName? "blue"),
          (Color.ofName? "yellow", Color.ofName? "white"),
          (Color.ofName? "yellow", Color.ofName? "red"), (none, none)] ∧
      ∀ box ∈ d.boxes, ∃ b, diagram.graph.box? box.name.value = some b ∧
        diagram.graph.styles.resolved b.style =
          ⟨d.boxColor? .background box, d.boxColor? .text box⟩ := by
  have hrun : (parse (α := FixedPoint) motley).toOption.map (fun d =>
      (d.build.toOption.isSome,
        d.boxes.map fun box => (d.boxColor? .background box, d.boxColor? .text box))) =
      some (true, [(Color.ofName? "green", Color.ofName? "blue"),
        (Color.ofName? "yellow", Color.ofName? "white"),
        (Color.ofName? "yellow", Color.ofName? "red"), (none, none)]) := by decide +kernel
  obtain ⟨d, hd, hall⟩ := Option.map_eq_some_iff.1 hrun
  obtain ⟨hbuilt, hcolors⟩ := Prod.mk.inj hall
  obtain ⟨diagram, hdiagram⟩ := Option.isSome_iff_exists.1 hbuilt
  have hread := eq_ok_of_toOption hd
  have hbuild := eq_ok_of_toOption hdiagram
  exact ⟨d, diagram, hread, hbuild, hcolors, (build_colors hread hbuild).2⟩

end Sources

end Schematic
