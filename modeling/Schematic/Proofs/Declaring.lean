import Schematic.Proofs.Lines
import Schematic.Proofs.Outcome

/-!
# One declaration

Which fields a declaration takes, what it then declares, and when a model takes it. Fields are
taken one after the other, and of several with one name the last one counts.

* `Field.OnStyle`, `Field.OnBox`, `Field.OnConnect`: the fields that declarations take.
* `Named.style`, `Named.said`, `Connection.arrow`: what declarations say with their fields.
* `BoxStyle.not_isName_ownId`: the styles that boxes get have no names of the language.
* `Graph.declareStyle_eq_ok_iff`, `Graph.declareBox_eq_ok_iff`, `Graph.declareArrow_eq_ok_iff`:
  when a model takes a declaration, and what it is afterwards.
-/

namespace Schematic

variable {α : Type}

namespace Field

/-- A field that a box style takes: a colour or a comment. -/
def OnStyle : Field α → Prop
  | background _ | textColor _ | comment _ => True
  | lineWidth _ | label _ | sourceHead _ | targetHead _ | style _ => False

/-- A field that a box takes: a colour, a label, a declared style or a comment. -/
def OnBox (declared : String → Prop) : Field α → Prop
  | background _ | textColor _ | label _ | comment _ => True
  | style name => declared name
  | lineWidth _ | sourceHead _ | targetHead _ => False

/-- A field that a connector takes: its width, the drawing of an end or a comment. -/
def OnConnect : Field α → Prop
  | lineWidth _ | comment _ => True
  | sourceHead name | targetHead name => name = "line" ∨ name = "filled_vee"
  | background _ | textColor _ | label _ | style _ => False

/-- A field is on a box if its style, should it name one, is declared. -/
theorem OnBox.congr {p q : String → Prop} {f : Field α} (h : ∀ name ∈ f.names, (p name ↔ q name)) :
    f.OnBox p ↔ f.OnBox q := by
  cases f with
  | style name => exact h name (by simp [names])
  | _ => rfl

end Field

/-! ### Box styles -/

namespace BoxStyle

/-- The style with what a field says of it. -/
def say (style : BoxStyle α) : Field α → BoxStyle α
  | .background color => { style with background := some color }
  | .textColor color => { style with text := some color }
  | _ => style

theorem addField_eq_ok_iff {style style' : BoxStyle α} {field : Located (Field α)} :
    style.addField field = .ok style' ↔ field.value.OnStyle ∧ style.say field.value = style' := by
  obtain ⟨value, span⟩ := field
  cases value <;> simp [addField, Field.OnStyle, say]

end BoxStyle

/-- The style that a declaration declares. -/
def Named.style (declaration : Named α) : BoxStyle α :=
  declaration.fields.foldl (fun style field => style.say field.value) (.plain declaration.name.value)

/-- **A box style** is taken if all of its fields are. -/
theorem BoxStyle.ofDeclaration_eq_ok_iff {declaration : Named α} {style : BoxStyle α} :
    BoxStyle.ofDeclaration declaration = .ok style ↔
      (∀ f ∈ declaration.fields, f.value.OnStyle) ∧ declaration.style = style :=
  foldlM_eq_ok_iff fun _ _ _ => addField_eq_ok_iff

/-- A style has the name of its declaration and inherits from no other. -/
theorem Named.style_plain (declaration : Named α) :
    declaration.style.id = declaration.name.value ∧ declaration.style.inherits = [] := by
  unfold style
  refine List.foldlRecOn (motive := fun style : BoxStyle α => style.id = declaration.name.value ∧
    style.inherits = []) declaration.fields _ ⟨rfl, rfl⟩ ?_
  intro style hstyle field _
  unfold BoxStyle.say
  split <;> exact hstyle

/-! ### Boxes -/

namespace BoxFields

/-- What was said, and what a field says. -/
def say (said : BoxFields α) : Field α → BoxFields α
  | .background color => { said with background := some color }
  | .textColor color => { said with text := some color }
  | .label text => { said with label := some text }
  | .style name => { said with style := some name }
  | _ => said

theorem add_eq_ok_iff {styles : StyleSheet α} {said said' : BoxFields α}
    {field : Located (Field α)} : said.add styles field = .ok said' ↔
      field.value.OnBox (fun name => styles.contains name) ∧ said.say field.value = said' := by
  obtain ⟨value, span⟩ := field
  cases value with
  | style name =>
    simp only [add, Field.OnBox, say]
    split <;> simp_all
  | _ => simp [add, Field.OnBox, say]

/-- **The fields of a box** are taken if each of them is. -/
theorem foldlM_add_eq_ok_iff {styles : StyleSheet α} {fields : List (Located (Field α))}
    {said said' : BoxFields α} : fields.foldlM (BoxFields.add styles) said = .ok said' ↔
      (∀ f ∈ fields, f.value.OnBox (fun name => styles.contains name)) ∧
        fields.foldl (fun said field => said.say field.value) said = said' :=
  foldlM_eq_ok_iff fun _ _ _ => add_eq_ok_iff

end BoxFields

namespace Named

/-- What the fields of a box say. -/
def said (declaration : Named α) : BoxFields α :=
  declaration.fields.foldl (fun said field => said.say field.value) .empty

/-- The style of a box that sets a colour. -/
def ownStyle? (declaration : Named α) : Option (BoxStyle α) :=
  if declaration.said.setsColor then some (declaration.said.ownStyle declaration.name.value) else none

/-- The style that a box is drawn with. -/
def drawnWith (declaration : Named α) : Option String :=
  if declaration.said.setsColor then some (BoxStyle.ownId declaration.name.value)
  else declaration.said.style

/-- The text in a box. -/
def label (declaration : Named α) : String := declaration.said.label.getD declaration.name.value

/-- The style that a box names is that of one of its fields. -/
theorem mem_of_said_style {declaration : Named α} {name : String}
    (h : declaration.said.style = some name) :
    ∃ f ∈ declaration.fields, f.value = .style name := by
  refine List.foldlRecOn (motive := fun said : BoxFields α => said.style = some name →
    ∃ f ∈ declaration.fields, f.value = .style name) declaration.fields _ (by simp [BoxFields.empty])
    ?_ h
  intro said hsaid field hfield
  unfold BoxFields.say
  split
  case h_4 name' hname =>
    intro hstyle
    obtain rfl := Option.some.inj hstyle
    exact ⟨field, hfield, hname⟩
  all_goals exact hsaid

end Named

/-! ### Connectors -/

theorem ArrowHead.exists_ofText?_iff {name : String} :
    (∃ head, ArrowHead.ofText? name = some head) ↔ name = "line" ∨ name = "filled_vee" := by
  rw [← Option.isSome_iff_exists, ofText?, List.find?_isSome]
  simp only [all, List.mem_cons, List.not_mem_nil, or_false, exists_eq_or_imp, exists_eq_left, text,
    beq_iff_eq]
  rw [eq_comm, @eq_comm _ "filled_vee"]

namespace Arrow

/-- The connector with what a field says of it. -/
def say (arrow : Arrow α) : Field α → Arrow α
  | .lineWidth width => { arrow with lineWidth := width }
  | .sourceHead name => { arrow with sourceHead := (ArrowHead.ofText? name).getD arrow.sourceHead }
  | .targetHead name => { arrow with targetHead := (ArrowHead.ofText? name).getD arrow.targetHead }
  | _ => arrow

theorem addField_eq_ok_iff {arrow arrow' : Arrow α} {field : Located (Field α)} :
    arrow.addField field = .ok arrow' ↔ field.value.OnConnect ∧ arrow.say field.value = arrow' := by
  obtain ⟨value, span⟩ := field
  cases value with
  | sourceHead name | targetHead name =>
    simp only [addField, readHead, Field.OnConnect, say, ← ArrowHead.exists_ofText?_iff]
    cases ArrowHead.ofText? name <;> simp [Except.map]
  | _ => simp [addField, Field.OnConnect, say]

/-- **The fields of a connector** are taken if each of them is. -/
theorem foldlM_addField_eq_ok_iff {fields : List (Located (Field α))} {arrow arrow' : Arrow α} :
    fields.foldlM addField arrow = .ok arrow' ↔ (∀ f ∈ fields, f.value.OnConnect) ∧
      fields.foldl (fun arrow field => arrow.say field.value) arrow = arrow' :=
  foldlM_eq_ok_iff fun _ _ _ => addField_eq_ok_iff

end Arrow

/-- The connector that a declaration declares. -/
def Connection.arrow [Scalar α] (declaration : Connection α) : Arrow α :=
  declaration.fields.foldl (fun arrow field => arrow.say field.value)
    (.between declaration.source.value declaration.target.value)

/-- A connector has the ends of its declaration. -/
theorem Connection.arrow_ends [Scalar α] (declaration : Connection α) :
    declaration.arrow.source = declaration.source.value ∧
      declaration.arrow.target = declaration.target.value := by
  unfold arrow
  refine List.foldlRecOn (motive := fun arrow : Arrow α => arrow.source = declaration.source.value ∧
    arrow.target = declaration.target.value) declaration.fields _ ⟨rfl, rfl⟩ ?_
  intro arrow harrow field _
  unfold Arrow.say
  split <;> exact harrow

/-! ### Declaring -/

namespace BoxStyle

/-- The name of a box's own style is not a name of the language. -/
theorem not_isName_ownId (box : String) : ¬IsName (ownId box) := by
  intro h
  have hmem : '!' ∈ (ownId box).toList := by
    rw [ownId, String.toList_append]
    exact List.mem_append_left _ (by decide)
  have hpart := h.word.parts '!' hmem
  revert hpart
  decide +kernel

theorem ownId_injective : Function.Injective ownId := by
  intro a b h
  have htexts : ("__!__box_" ++ a).toList = ("__!__box_" ++ b).toList := congrArg String.toList h
  rw [String.toList_append, String.toList_append] at htexts
  exact String.toList_injective (List.append_cancel_left htexts)

end BoxStyle

namespace StyleSheet

theorem get?_empty (id : String) : (empty : StyleSheet α).get? id = none := Std.TreeMap.getElem?_emptyc

theorem not_contains_empty (id : String) : ¬(empty : StyleSheet α).contains id := by
  simp [contains, get?_empty]

theorem get?_insert {sheet : StyleSheet α} {style : BoxStyle α} {id : String} :
    (sheet.insert style).get? id = if style.id = id then some style else sheet.get? id := by
  rw [insert, get?, Std.TreeMap.getElem?_insert]
  simp only [compare_eq_iff_eq]
  rfl

theorem contains_insert {sheet : StyleSheet α} {style : BoxStyle α} {id : String} :
    (sheet.insert style).contains id ↔ id = style.id ∨ sheet.contains id := by
  rw [contains, contains, get?_insert]
  split
  · simp_all
  · rename_i hne
    simp [Ne.symm hne]

end StyleSheet

namespace Graph

/-- **A box style** is declared if its fields are those of a style and its name is new. -/
theorem declareStyle_eq_ok_iff {g g' : Graph α} {declaration : Named α} :
    g.declareStyle declaration = .ok g' ↔
      ((∀ f ∈ declaration.fields, f.value.OnStyle) ∧ ¬g.styles.contains declaration.name.value) ∧
        g.addStyle declaration.style = g' := by
  rw [declareStyle, except_bind_eq_ok]
  simp only [BoxStyle.ofDeclaration_eq_ok_iff, and_assoc, exists_and_left, exists_eq_left',
    declaration.style_plain.1]
  split
  · simp_all
  · simp_all

theorem contains_addStyle (g : Graph α) (declaration : Named α) (id : String) :
    (g.addStyle declaration.style).styles.contains id ↔
      id = declaration.name.value ∨ g.styles.contains id := by
  rw [← declaration.style_plain.1]
  exact StyleSheet.contains_insert

/-- The model with a box, and with its style if it sets a colour. -/
def withBox (g : Graph α) (declaration : Named α) : Graph α :=
  let id := declaration.name.value
  let interned := Anchors.intern id g.table
  { g with
    boxes := g.boxes.insert id ⟨id, declaration.label, declaration.drawnWith, interned.1⟩
    styles := declaration.ownStyle?.elim g.styles g.styles.insert
    table := interned.2 }

theorem addBox_eq_some_iff (g g' : Graph α) (id label : String) (style : Option String) :
    g.addBox id label style = some g' ↔ ¬(g.box? id).isSome ∧
      { g with
        boxes := g.boxes.insert id ⟨id, label, style, (Anchors.intern id g.table).1⟩
        table := (Anchors.intern id g.table).2 } = g' := by
  unfold addBox
  split
  · simp_all
  · rename_i hfree
    rw [and_iff_right hfree]
    rcases Anchors.intern id g.table with ⟨anchors, table⟩
    rw [Option.some.injEq]

/-- **A box** is declared if it is not named like the canvas, its fields are those of a box, and
its name is new. -/
theorem declareBox_eq_ok_iff {g g' : Graph α} {declaration : Named α} :
    g.declareBox declaration = .ok g' ↔
      ((declaration.name.value ≠ canvasHead ∧
        ∀ f ∈ declaration.fields, f.value.OnBox (fun name => g.styles.contains name)) ∧
          ¬(g.box? declaration.name.value).isSome) ∧
        g.withBox declaration = g' := by
  simp only [declareBox]
  split
  · simp_all
  rename_i hid
  have hsaid : declaration.fields.foldl (fun said field => said.say field.value) .empty =
      declaration.said := rfl
  simp only [except_bind_eq_ok, BoxFields.foldlM_add_eq_ok_iff, and_assoc, exists_and_left,
    exists_eq_left', ne_eq, hid, not_false_eq_true, true_and, hsaid]
  refine and_congr_right fun _ => ?_
  unfold withBox Named.drawnWith Named.ownStyle?
  -- the box is taken as soon as its name is new
  by_cases hcolor : declaration.said.setsColor
  · simp only [hcolor, if_true]
    refine Iff.trans ?_ (addBox_eq_some_iff
      (g.addStyle (declaration.said.ownStyle declaration.name.value)) g' _ declaration.label _)
    unfold Named.label
    split <;> simp_all
  · simp only [hcolor]
    refine Iff.trans ?_ (addBox_eq_some_iff g g' _ declaration.label _)
    unfold Named.label
    split <;> simp_all

theorem box?_withBox {g : Graph α} {declaration : Named α} {id : String} :
    (g.withBox declaration).box? id =
      if declaration.name.value = id then
        some ⟨id, declaration.label, declaration.drawnWith, (Anchors.intern id g.table).1⟩
      else g.box? id := by
  rw [withBox, box?, Std.TreeMap.getElem?_insert]
  simp only [compare_eq_iff_eq]
  split
  · rename_i hid
    rw [hid]
  · rfl

theorem isSome_box?_withBox (g : Graph α) (declaration : Named α) (id : String) :
    ((g.withBox declaration).box? id).isSome ↔
      id = declaration.name.value ∨ (g.box? id).isSome := by
  rw [box?_withBox]
  split
  · simp_all
  · rename_i hne
    simp [Ne.symm hne]

/-- A box adds no style of a name of the language. -/
theorem contains_withBox {g : Graph α} {declaration : Named α} {name : String} (hname : IsName name) :
    (g.withBox declaration).styles.contains name ↔ g.styles.contains name := by
  unfold withBox Named.ownStyle?
  by_cases hcolor : declaration.said.setsColor
  · simp only [hcolor, if_true, Option.elim_some, StyleSheet.contains_insert]
    refine or_iff_right fun heq => ?_
    rw [heq] at hname
    exact BoxStyle.not_isName_ownId _ hname
  · simp only [hcolor]
    rfl

/-- **A connector** is declared if both its ends are boxes and its fields are those of a
connector. -/
theorem declareArrow_eq_ok_iff [Scalar α] {g g' : Graph α} {declaration : Connection α} :
    g.declareArrow declaration = .ok g' ↔
      ((g.box? declaration.source.value).isSome ∧ (g.box? declaration.target.value).isSome ∧
        ∀ f ∈ declaration.fields, f.value.OnConnect) ∧
        g.addArrow declaration.arrow = g' := by
  rw [declareArrow, except_bind_eq_ok]
  have hends : ∀ arrow, Arrow.ofDeclaration g declaration = .ok arrow ↔
      ((g.box? declaration.source.value).isSome ∧ (g.box? declaration.target.value).isSome ∧
        ∀ f ∈ declaration.fields, f.value.OnConnect) ∧ declaration.arrow = arrow := by
    intro arrow
    have hfields : declaration.fields.foldlM Arrow.addField
        (.between declaration.source.value declaration.target.value) = .ok arrow ↔
          (∀ f ∈ declaration.fields, f.value.OnConnect) ∧ declaration.arrow = arrow :=
      Arrow.foldlM_addField_eq_ok_iff
    simp only [Arrow.ofDeclaration, List.forIn_cons, List.forIn_nil]
    cases g.box? declaration.source.value <;> cases g.box? declaration.target.value <;>
      simp [hfields]
  simp only [hends, and_assoc, exists_and_left, exists_eq_left', except_pure, Except.ok.injEq]

end Graph

end Schematic
