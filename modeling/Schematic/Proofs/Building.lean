import Schematic.Proofs.Declaring
import Schematic.Proofs.FixedPoint
import Schematic.Proofs.Keyed

/-!
# Building documents

Which documents have a model, and what is in it. A document is built if and only if it is well
referenced: its names are distinct, every declaration has only the fields that it takes, and
all that it refers to is declared somewhere. The models of documents refer to nothing that is
not in them.

The names of a source hold no `!`, so the styles that boxes get for colours of their own are
never those that a source declares or refers to.

* `Document.WellReferenced`: the documents that have a model.
* `Document.model`: the model, said without refusing anything.
* `Document.build_eq_ok_iff`: what building a document comes to.
* `Graph.Closed`: all that a model refers to is in it.
* `build_iff_wellReferenced`: the documents of sources that are built, and their models.
-/

namespace Schematic

variable {α : Type}

namespace Document

/-- The names of the declared box styles, in order. -/
def styleNames (d : Document α) : List String := d.boxStyles.map (·.name.value)

/-- The names of the declared boxes, in order. -/
def boxNames (d : Document α) : List String := d.boxes.map (·.name.value)

/-- **A well-referenced document.** Its names are distinct, its fields are those that their
declarations take, and all that is referred to is declared, be it before or after. -/
structure WellReferenced (d : Document α) : Prop where
  styles_nodup : d.styleNames.Nodup
  style_fields : ∀ s ∈ d.boxStyles, ∀ f ∈ s.fields, f.value.OnStyle
  boxes_nodup : d.boxNames.Nodup
  unreserved : canvasHead ∉ d.boxNames
  box_fields : ∀ b ∈ d.boxes, ∀ f ∈ b.fields, f.value.OnBox (· ∈ d.styleNames)
  ends : ∀ c ∈ d.connections, c.source.value ∈ d.boxNames ∧ c.target.value ∈ d.boxNames
  connect_fields : ∀ c ∈ d.connections, ∀ f ∈ c.fields, f.value.OnConnect

/-- The declarations of box styles and boxes give names of the language. -/
theorem Lexical.names {d : Document α} (h : d.Lexical) :
    ∀ declaration ∈ d.boxStyles ++ d.boxes, IsName declaration.name.value ∧
      ∀ f ∈ declaration.fields, ∀ name ∈ f.value.names, IsName name := by
  intro declaration hmem
  have hall : ∃ l ∈ d.declarations, l.value.item.names =
      declaration.name.value :: declaration.fields.flatMap (·.value.names) := by
    rcases List.mem_append.1 hmem with hmem | hmem
    all_goals
      obtain ⟨l, hl, heq⟩ := List.mem_filterMap.1 hmem
      refine ⟨l, hl, ?_⟩
      split at heq
      · rename_i hitem
        obtain rfl := Option.some.inj heq
        rw [hitem]
        rfl
      · simp at heq
  obtain ⟨l, hl, hnames⟩ := hall
  have hlexical := h l hl
  rw [hnames, List.forall_mem_cons] at hlexical
  refine ⟨hlexical.1, fun f hf name hname => hlexical.2 name ?_⟩
  exact List.mem_flatMap.2 ⟨f, hf, hname⟩

end Document

/-! ### All declarations -/

namespace Document

variable {d : Document α}

/-- The model with the styles of a document. -/
def styled (d : Document α) : Graph α := d.boxStyles.foldl (fun g s => g.addStyle s.style) .empty

/-- The model with the styles and the boxes of a document. -/
def boxed (d : Document α) : Graph α := d.boxes.foldl Graph.withBox d.styled

/-- **The model of a document**, said without refusing anything. -/
def model [Scalar α] (d : Document α) : Graph α :=
  d.connections.foldl (fun g c => g.addArrow c.arrow) d.boxed

/-- **All box styles** are declared if their names are distinct and their fields are those of
styles. -/
theorem foldlM_declareStyle_iff {g : Graph α} :
    d.boxStyles.foldlM Graph.declareStyle .empty = .ok g ↔
      (d.styleNames.Nodup ∧ ∀ s ∈ d.boxStyles, ∀ f ∈ s.fields, f.value.OnStyle) ∧ d.styled = g := by
  have hempty : ∀ s ∈ d.boxStyles, ¬(Graph.empty : Graph α).styles.contains s.name.value :=
    fun s _ => StyleSheet.not_contains_empty s.name.value
  have hfold : d.boxStyles.foldlM Graph.declareStyle .empty = .ok g ↔ _ :=
    foldlM_fresh_eq_ok_iff (fun _ => True) (fun g id => g.styles.contains id) (·.name.value)
      (fun s => ∀ f ∈ s.fields, f.value.OnStyle) (fun g s => g.addStyle s.style)
      (fun g _ s _ g' => Graph.declareStyle_eq_ok_iff) (fun g _ s _ => ⟨trivial, g.contains_addStyle s⟩)
      trivial
  rw [hfold, and_iff_left hempty, and_comm (b := (d.boxStyles.map _).Nodup)]
  rfl

/-- The styles of a document are declared for its boxes, and no box is there yet. -/
theorem styled_spec (d : Document α) : (∀ id, d.styled.styles.contains id ↔ id ∈ d.styleNames) ∧
    ∀ id, d.styled.box? id = none := by
  constructor
  · intro id
    have hempty : ¬(Graph.empty : Graph α).styles.contains id := StyleSheet.not_contains_empty id
    exact (taken_foldl_iff (fun (g : Graph α) id => g.styles.contains id) (fun s : Named α => s.name.value)
      Graph.contains_addStyle).trans (or_iff_left hempty)
  · intro id
    refine List.foldlRecOn (motive := fun g : Graph α => g.box? id = none) d.boxStyles _
      Std.TreeMap.getElem?_emptyc ?_
    intro g hg s _
    exact hg

/-- **All boxes** are declared if their names are distinct and not that of the canvas, and their
fields are those of boxes. -/
theorem foldlM_declareBox_iff (hnames : d.Lexical) {g : Graph α} :
    d.boxes.foldlM Graph.declareBox d.styled = .ok g ↔
      (d.boxNames.Nodup ∧ canvasHead ∉ d.boxNames ∧
        ∀ b ∈ d.boxes, ∀ f ∈ b.fields, f.value.OnBox (· ∈ d.styleNames)) ∧ d.boxed = g := by
  -- boxes add no style that a source could refer to
  have hfold : d.boxes.foldlM Graph.declareBox d.styled = .ok g ↔ _ :=
    foldlM_fresh_eq_ok_iff
      (fun g => ∀ name, IsName name → (g.styles.contains name ↔ name ∈ d.styleNames))
      (fun g id => (g.box? id).isSome) (·.name.value)
      (fun b => b.name.value ≠ canvasHead ∧ ∀ f ∈ b.fields, f.value.OnBox (· ∈ d.styleNames))
      Graph.withBox (fun g hg b hb g' => ?_) (fun g hg b hb => ⟨?_, g.isSome_box?_withBox b⟩)
      (fun name _ => d.styled_spec.1 name)
  · have hfree : ∀ b ∈ d.boxes, ¬(d.styled.box? b.name.value).isSome := by
      intro b _
      simp [d.styled_spec.2]
    have hcanvas : canvasHead ∉ d.boxNames ↔ ∀ b ∈ d.boxes, b.name.value ≠ canvasHead := by
      simp [boxNames]
    rw [hfold, and_iff_left hfree, hcanvas, ← forall₂_and]
    rw [and_comm (b := (d.boxes.map _).Nodup)]
    rfl
  · rw [Graph.declareBox_eq_ok_iff]
    have hfields : ∀ f ∈ b.fields, (f.value.OnBox (fun name => g.styles.contains name) ↔
        f.value.OnBox (· ∈ d.styleNames)) := by
      intro f hf
      refine Field.OnBox.congr fun name hname => hg name ?_
      exact (hnames.names b (List.mem_append_right _ hb)).2 f hf name hname
    rw [forall₂_congr hfields]
  · intro name hname
    rw [Graph.contains_withBox hname]
    exact hg name hname

/-- The boxes of a document are there for its connectors. -/
theorem boxed_spec (d : Document α) (id : String) : (d.boxed.box? id).isSome ↔ id ∈ d.boxNames := by
  have hempty : ¬(d.styled.box? id).isSome := by simp [d.styled_spec.2]
  exact (taken_foldl_iff (fun (g : Graph α) id => (g.box? id).isSome) _ Graph.isSome_box?_withBox).trans
    (or_iff_left hempty)

/-- **All connectors** are declared if their ends are boxes and their fields are those of
connectors. -/
theorem foldlM_declareArrow_iff [Scalar α] {g : Graph α} :
    d.connections.foldlM Graph.declareArrow d.boxed = .ok g ↔
      ((∀ c ∈ d.connections, c.source.value ∈ d.boxNames ∧ c.target.value ∈ d.boxNames) ∧
        ∀ c ∈ d.connections, ∀ f ∈ c.fields, f.value.OnConnect) ∧ d.model = g := by
  have hfold : d.connections.foldlM Graph.declareArrow d.boxed = .ok g ↔ _ :=
    foldlM_eq_ok_iff_of_invariant (fun g => ∀ id, (g.box? id).isSome ↔ id ∈ d.boxNames)
      (fun c => (c.source.value ∈ d.boxNames ∧ c.target.value ∈ d.boxNames) ∧
        ∀ f ∈ c.fields, f.value.OnConnect)
      (fun g c => g.addArrow c.arrow) (fun g hg c g' => ?_) (fun g c hg => hg) d.boxed_spec
  · rw [hfold, ← forall₂_and]
    rfl
  · simp only [Graph.declareArrow_eq_ok_iff, hg, and_assoc]

/-- **What building comes to**: the documents that are built are the well-referenced ones. -/
theorem build_eq_ok_iff [Scalar α] (hnames : d.Lexical) {diagram : Diagram α} :
    d.build = .ok diagram ↔ d.WellReferenced ∧ ⟨d.model, d.equations⟩ = diagram := by
  simp only [build, except_bind_eq_ok, foldlM_declareStyle_iff]
  constructor
  · rintro ⟨g₁, ⟨⟨hstyles, hfields⟩, rfl⟩, g₂, h₂, g₃, h₃, h⟩
    obtain ⟨⟨hboxes, hcanvas, hboxFields⟩, rfl⟩ := (foldlM_declareBox_iff hnames).1 h₂
    obtain ⟨⟨hends, hconnects⟩, rfl⟩ := foldlM_declareArrow_iff.1 h₃
    exact ⟨⟨hstyles, hfields, hboxes, hcanvas, hboxFields, hends, hconnects⟩, Except.ok.inj h⟩
  · rintro ⟨⟨hstyles, hfields, hboxes, hcanvas, hboxFields, hends, hconnects⟩, rfl⟩
    exact ⟨_, ⟨⟨hstyles, hfields⟩, rfl⟩,
      _, (foldlM_declareBox_iff hnames).2 ⟨⟨hboxes, hcanvas, hboxFields⟩, rfl⟩,
      _, foldlM_declareArrow_iff.2 ⟨⟨hends, hconnects⟩, rfl⟩, rfl⟩

end Document

/-! ### What a model holds -/

namespace StyleSheet

/-- The sheet of a list of styles. -/
def ofList (styles : List (BoxStyle α)) : StyleSheet α := styles.foldl insert empty

theorem contains_ofList {styles : List (BoxStyle α)} {id : String} :
    (ofList styles).contains id ↔ id ∈ styles.map (·.id) :=
  (taken_foldl_iff (fun (sheet : StyleSheet α) id => sheet.contains id) BoxStyle.id
    fun _ _ _ => contains_insert).trans (or_iff_left (not_contains_empty id))

/-- A style that is found is one of those that the sheet was made of. -/
theorem mem_of_get?_ofList {styles : List (BoxStyle α)} {id : String} {style : BoxStyle α}
    (h : (ofList styles).get? id = some style) : style ∈ styles ∧ style.id = id := by
  refine List.foldlRecOn (motive := fun sheet : StyleSheet α =>
    sheet.get? id = some style → style ∈ styles ∧ style.id = id) styles insert ?_ ?_ h
  · intro hempty
    simp [get?_empty] at hempty
  · intro sheet hsheet style' hmem hfound
    rw [get?_insert] at hfound
    split at hfound
    · rename_i hid
      obtain rfl := Option.some.inj hfound
      exact ⟨hmem, hid⟩
    · exact hsheet hfound

theorem mem_toList_iff {sheet : StyleSheet α} {style : BoxStyle α} :
    style ∈ sheet.toList ↔ ∃ id, sheet.get? id = some style := by
  simp only [toList, List.mem_map, Prod.exists, Std.TreeMap.mem_toList_iff_getElem?_eq_some, get?,
    exists_eq_right]

end StyleSheet

namespace Document

variable {d : Document α}

/-- The styles that a document declares, and those of boxes that set colours. -/
def sheet (d : Document α) : List (BoxStyle α) :=
  d.boxStyles.map (·.style) ++ d.boxes.filterMap (·.ownStyle?)

/-- Connectors change nothing but the list of connectors. -/
theorem model_eq [Scalar α] (d : Document α) :
    d.model = { d.boxed with arrows := d.boxed.arrows ++ d.connections.map (·.arrow) } := by
  unfold model
  generalize d.boxed = g
  induction d.connections generalizing g with
  | nil => simp
  | cons c cs ih => rw [List.foldl_cons, ih, Graph.addArrow, List.append_assoc, List.map_cons]; rfl

theorem model_box? [Scalar α] (d : Document α) (id : String) : d.model.box? id = d.boxed.box? id := by
  rw [model_eq]
  rfl

theorem model_arrows [Scalar α] (d : Document α) : d.model.arrows = d.connections.map (·.arrow) := by
  have hstyled : d.styled.arrows = [] := by
    refine List.foldlRecOn (motive := fun g : Graph α => g.arrows = []) d.boxStyles _ rfl ?_
    exact fun g hg s _ => hg
  have hboxed : d.boxed.arrows = [] := by
    refine List.foldlRecOn (motive := fun g : Graph α => g.arrows = []) d.boxes _ hstyled ?_
    exact fun g hg b _ => hg
  rw [model_eq, hboxed, List.nil_append]

/-- **The styles of a model** are those that the document declares and those of its boxes. -/
theorem model_styles [Scalar α] (d : Document α) : d.model.styles = .ofList d.sheet := by
  have hstyled : d.styled.styles = (d.boxStyles.map (·.style)).foldl StyleSheet.insert .empty := by
    rw [List.foldl_map]
    exact (List.foldl_hom Graph.styles fun _ _ => rfl).symm
  have hboxed : d.boxed.styles =
      (d.boxes.filterMap (·.ownStyle?)).foldl StyleSheet.insert d.styled.styles := by
    rw [List.foldl_filterMap]
    refine (List.foldl_hom Graph.styles fun g b => ?_).symm
    unfold Graph.withBox
    cases b.ownStyle? <;> rfl
  rw [model_eq, StyleSheet.ofList, sheet, List.foldl_append, ← hstyled, ← hboxed]

/-- A box of a model is one of those that the document declares. -/
theorem exists_of_model_box? [Scalar α] {id : String} {b : DiagramBox} (h : d.model.box? id = some b) :
    ∃ declaration ∈ d.boxes, declaration.name.value = id ∧ b.id = id ∧
      b.label = declaration.label ∧ b.style = declaration.drawnWith := by
  rw [model_box?] at h
  refine List.foldlRecOn (motive := fun g : Graph α => g.box? id = some b →
    ∃ declaration ∈ d.boxes, declaration.name.value = id ∧ b.id = id ∧
      b.label = declaration.label ∧ b.style = declaration.drawnWith) d.boxes Graph.withBox ?_ ?_ h
  · simp [d.styled_spec.2]
  · intro g hg declaration hmem hb
    rw [Graph.box?_withBox] at hb
    split at hb
    · rename_i hid
      obtain rfl := Option.some.inj hb
      exact ⟨declaration, hmem, hid, rfl, rfl, rfl⟩
    · exact hg hb

/-- What a box of a document inherits from or is drawn with is in the sheet. -/
theorem WellReferenced.style_mem (h : d.WellReferenced) {declaration : Named α}
    (hmem : declaration ∈ d.boxes) {id : String} (hid : declaration.said.style = some id) :
    id ∈ d.sheet.map (·.id) := by
  obtain ⟨f, hf, hstyle⟩ := Named.mem_of_said_style hid
  have hfield := h.box_fields declaration hmem f hf
  rw [hstyle] at hfield
  obtain ⟨s, hs, rfl⟩ := List.mem_map.1 hfield
  refine List.mem_map.2 ⟨s.style, List.mem_append_left _ ?_, s.style_plain.1⟩
  exact List.mem_map.2 ⟨s, hs, rfl⟩

end Document

/-- **A closed model** of a document: its boxes are the declared ones, the styles of boxes and what
styles inherit from are there, and there is a connector between boxes for each declared one. -/
structure Graph.Closed (g : Graph α) (d : Document α) : Prop where
  boxes : ∀ id, (g.box? id).isSome ↔ id ∈ d.boxNames
  styles : ∀ b ∈ g.boxList, ∀ id ∈ b.style, g.styles.contains id
  inherits : ∀ style ∈ g.styles.toList, ∀ id ∈ style.inherits, g.styles.contains id
  arrows : g.arrows.map (fun a => (a.source, a.target)) =
    d.connections.map fun c => (c.source.value, c.target.value)
  ends : ∀ a ∈ g.arrows, (g.box? a.source).isSome ∧ (g.box? a.target).isSome

/-- The model of a well-referenced document is closed. -/
theorem Document.WellReferenced.closed [Scalar α] {d : Document α} (h : d.WellReferenced) :
    d.model.Closed d where
  boxes id := by rw [d.model_box?, d.boxed_spec]
  styles b hb id hid := by
    obtain ⟨id', hb⟩ := Graph.mem_boxList_iff.1 hb
    obtain ⟨declaration, hmem, -, -, -, hstyle⟩ := exists_of_model_box? hb
    rw [d.model_styles, StyleSheet.contains_ofList]
    rw [hstyle, Named.drawnWith] at hid
    split at hid
    · rename_i hcolor
      obtain rfl := Option.some.inj hid
      refine List.mem_map.2 ⟨declaration.said.ownStyle declaration.name.value, ?_, rfl⟩
      refine List.mem_append_right _ (List.mem_filterMap.2 ⟨declaration, hmem, ?_⟩)
      exact if_pos hcolor
    · exact h.style_mem hmem hid
  inherits style hstyle id hid := by
    obtain ⟨id', hstyle⟩ := StyleSheet.mem_toList_iff.1 hstyle
    rw [d.model_styles] at hstyle ⊢
    rw [StyleSheet.contains_ofList]
    obtain ⟨hmem, -⟩ := StyleSheet.mem_of_get?_ofList hstyle
    rcases List.mem_append.1 hmem with hmem | hmem
    · -- declared styles inherit from none
      obtain ⟨s, -, rfl⟩ := List.mem_map.1 hmem
      simp [s.style_plain.2] at hid
    · obtain ⟨declaration, hdeclaration, hown⟩ := List.mem_filterMap.1 hmem
      obtain ⟨-, hstyle⟩ := Option.ite_none_right_eq_some.1 hown
      obtain rfl := Option.some.inj hstyle
      exact h.style_mem hdeclaration (Option.mem_toList.1 hid)
  arrows := by
    rw [d.model_arrows, List.map_map]
    refine List.map_congr_left fun c _ => ?_
    rw [Function.comp_apply, c.arrow_ends.1, c.arrow_ends.2]
  ends a ha := by
    rw [d.model_arrows] at ha
    obtain ⟨c, hc, rfl⟩ := List.mem_map.1 ha
    simp only [d.model_box?, d.boxed_spec, c.arrow_ends]
    exact h.ends c hc

section Sources

variable [Scalar α] [Numeral α] {source : String} {d : Document α}

theorem exists_build_iff (hread : parse source = .ok d) :
    (∃ diagram, d.build = .ok diagram) ↔ d.WellReferenced := by
  simp only [Document.build_eq_ok_iff (parse_lexical hread), exists_and_left, exists_eq', and_true]

/-- A connector, its boxes and their style, each declared after what refers to it. -/
def forward : String :=
  "connect a b \x7b head2: filled_vee \x7d\nbox a \x7b style: s; background-color: red \x7d\nbox b\n" ++
    "box-style s \x7b text-color: white \x7d"

end Sources

end Schematic
