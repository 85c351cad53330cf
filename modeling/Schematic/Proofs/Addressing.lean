import Schematic.Proofs.Building
import Schematic.Proofs.Naming
import Schematic.Proofs.Placing

/-!
# Variables and anchors

The variables of a model are the anchors of the canvas and of its boxes, one for one. A table is
made by interning names that are new, so it lists them in order; and the name of an anchor's
variable tells both the anchor and its owner, since no suffix holds a dot. The canvas is no box,
since no name of a source is a single dot.

* `VariableTable.names_internAll`: a table after any number of new names.
* `Anchors.variableName_inj`: the names of variables tell their owners apart.
* `Document.WellReferenced.table_names`: the names of all variables of a model, in order.
* `Graph.Addressed`: every variable is one anchor of one owner, and has its name.
* `build_addressed`: the models of sources, and what references to them speak of.
-/

namespace Schematic

variable {α : Type}

/-! ### Tables -/

namespace VariableTable

/-- A name that is new goes to the end of a table. -/
theorem intern_of_new {table : VariableTable} {name : String} (h : name ∉ table.names) :
    intern name table = (table.size, ⟨table.names ++ [name]⟩) := by
  have hlookup : table.lookup name = none := by
    refine List.findIdx?_eq_none_iff.2 fun other hother => ?_
    rw [beq_eq_false_iff_ne]
    rintro rfl
    exact h hother
  rw [intern, hlookup]

/-- The table after names were interned one after the other. -/
def internAll (names : List String) (table : VariableTable) : VariableTable :=
  names.foldl (fun table name => (intern name table).2) table

theorem internAll_append (names names' : List String) (table : VariableTable) :
    internAll (names ++ names') table = internAll names' (internAll names table) :=
  List.foldl_append

/-- **Interning new names** lists them in order behind those that were there. -/
theorem names_internAll (names : List String) (table : VariableTable)
    (h : (table.names ++ names).Nodup) : (internAll names table).names = table.names ++ names := by
  induction names generalizing table with
  | nil => exact (List.append_nil _).symm
  | cons name names ih =>
    have hnew : name ∉ table.names := fun hmem =>
      (List.nodup_append'.1 h).2.2 hmem List.mem_cons_self
    rw [List.append_cons] at h ⊢
    rw [internAll, List.foldl_cons, intern_of_new hnew]
    exact ih ⟨table.names ++ [name]⟩ h

/-- **Names and variables are inverse to each other** if no two names are the same. -/
theorem lookup_eq_some_iff {table : VariableTable} (h : table.names.Nodup) {name : String}
    {v : Variable} : table.lookup name = some v ↔ table.names[v]? = some name := by
  rw [lookup, List.findIdx?_eq_some_iff_getElem, List.getElem?_eq_some_iff]
  constructor
  · rintro ⟨hv, hname, -⟩
    exact ⟨hv, beq_iff_eq.1 hname⟩
  · rintro ⟨hv, rfl⟩
    refine ⟨hv, beq_self_eq_true _, fun j hj heq => ?_⟩
    have hij := (List.Nodup.getElem_inj_iff h).1 (beq_iff_eq.1 heq)
    omega

end VariableTable

/-! ### Names of anchors -/

theorem Anchor.text_injective : Function.Injective Anchor.text := by
  intro a b h
  cases a <;> cases b <;> first | rfl | exact absurd h (by decide)

theorem Anchor.not_dot_mem_text (anchor : Anchor) : '.' ∉ anchor.text.toList := by
  cases anchor <;> decide

namespace Anchors

/-- **The name of a variable tells whose anchor it is**: what follows the last dot is the anchor. -/
theorem variableName_inj {owner₁ owner₂ : String} {anchor₁ anchor₂ : Anchor}
    (h : variableName owner₁ anchor₁ = variableName owner₂ anchor₂) :
    owner₁ = owner₂ ∧ anchor₁ = anchor₂ := by
  have hchars : ∀ owner anchor, (variableName owner anchor).toList.reverse =
      anchor.text.toList.reverse ++ '.' :: owner.toList.reverse := by
    intro owner anchor
    simp [variableName]
  have hsuffix : ∀ owner anchor, (variableName owner anchor).toList.reverse.takeWhile (· != '.') =
      anchor.text.toList.reverse := by
    intro owner anchor
    have hdots : ∀ c ∈ anchor.text.toList.reverse, (c != '.') = true := by
      intro c hc
      rw [bne_iff_ne]
      rintro rfl
      exact anchor.not_dot_mem_text (List.mem_reverse.1 hc)
    rw [hchars, List.takeWhile_append_of_pos hdots]
    simp
  have hanchor : anchor₁ = anchor₂ := by
    have htext := hsuffix owner₁ anchor₁
    rw [h, hsuffix, List.reverse_inj] at htext
    exact Anchor.text_injective (String.toList_injective htext.symm)
  subst hanchor
  have howner := hchars owner₁ anchor₁
  rw [h, hchars, List.append_cancel_left_eq, List.cons.injEq, List.reverse_inj] at howner
  exact ⟨String.toList_injective howner.2.symm, rfl⟩

/-- The names of the variables of an owner, in order. -/
def variableNames (owner : String) : List String := Anchor.all.map (variableName owner)

/-- The names of the variables of distinct owners are distinct. -/
theorem nodup_variableNames {owners : List String} (h : owners.Nodup) :
    (owners.flatMap variableNames).Nodup := by
  refine List.nodup_flatMap.2 ⟨fun owner _ => ?_, h.imp fun hne => ?_⟩
  · exact List.Nodup.map (fun _ _ heq => (variableName_inj heq).2) (by decide)
  · intro name h₁ h₂
    obtain ⟨anchor₁, -, rfl⟩ := List.mem_map.1 h₁
    obtain ⟨anchor₂, -, heq⟩ := List.mem_map.1 h₂
    exact hne (variableName_inj heq).1.symm

/-- The table with the anchors of an owner. -/
theorem intern_snd (owner : String) (table : VariableTable) :
    (intern owner table).2 = .internAll (variableNames owner) table := by
  unfold intern VariableTable.internAll
  generalize VariableTable.intern = step
  rfl

end Anchors

/-! ### Models -/

theorem Graph.table_withBox (g : Graph α) (declaration : Named α) : (g.withBox declaration).table =
    .internAll (Anchors.variableNames declaration.name.value) g.table := by
  rw [withBox, Anchors.intern_snd]

namespace Document

variable {d : Document α}

theorem boxed_table (d : Document α) :
    d.boxed.table = .internAll (d.boxNames.flatMap Anchors.variableNames) d.styled.table := by
  unfold boxed boxNames
  generalize d.styled = g
  induction d.boxes generalizing g with
  | nil => rfl
  | cons b bs ih =>
    rw [List.foldl_cons, ih, g.table_withBox, List.map_cons, List.flatMap_cons,
      VariableTable.internAll_append]

/-- The table of a model is made by interning the names of its owners' variables. -/
theorem model_table [Scalar α] (d : Document α) :
    d.model.table =
      .internAll ((canvasOwner :: d.boxNames).flatMap Anchors.variableNames) .empty := by
  have hstyled : d.styled.table = .internAll (Anchors.variableNames canvasOwner) .empty := by
    refine List.foldlRecOn (motive := fun g : Graph α => g.table = _) d.boxStyles _ ?_ ?_
    · exact Anchors.intern_snd canvasOwner .empty
    · exact fun g hg s _ => hg
  rw [List.flatMap_cons, VariableTable.internAll_append, ← hstyled, ← boxed_table, model_eq]

/-- The owner of the canvas's variables is no box, since no name is a single dot. -/
theorem Lexical.canvasOwner_not_mem (h : d.Lexical) : canvasOwner ∉ d.boxNames := by
  intro hmem
  obtain ⟨b, hb, hname⟩ := List.mem_map.1 hmem
  have hisName := (h.names b (List.mem_append_right _ hb)).1
  rw [hname] at hisName
  exact absurd (hisName.word.parts '.' (by decide)) (by decide +kernel)

/-- **The names of all variables** of a model: those of the canvas, then those of the boxes in the
order of their declarations. -/
theorem WellReferenced.table_names [Scalar α] (h : d.WellReferenced) (hnames : d.Lexical) :
    d.model.table.names = (canvasOwner :: d.boxNames).flatMap Anchors.variableNames := by
  have howners : (canvasOwner :: d.boxNames).Nodup :=
    List.nodup_cons.2 ⟨hnames.canvasOwner_not_mem, h.boxes_nodup⟩
  have hnodup := Anchors.nodup_variableNames howners
  rw [model_table]
  exact VariableTable.names_internAll _ .empty hnodup

/-- The boxes of a model, by name, are the declared ones. -/
theorem WellReferenced.keys_perm [Scalar α] (h : d.WellReferenced) :
    d.model.boxes.keys.Perm d.boxNames := by
  refine (List.perm_ext_iff_of_nodup Std.TreeMap.nodup_keys h.boxes_nodup).2 fun id => ?_
  rw [Std.TreeMap.mem_keys, ← h.closed.boxes, Graph.box?, Std.TreeMap.isSome_getElem?_iff_mem]

end Document

namespace Graph

/-- The variables of all anchors: those of the canvas, then those of the boxes in the order of their
names. -/
def anchorVariables (g : Graph α) : List Variable :=
  (g.anchors :: g.boxList.map (·.anchors)).flatMap fun anchors => Anchor.all.map anchors.get

/-- **A model whose variables are its anchors**, one for one, each with the name that its owner
gives it. Names and variables are inverse to each other. -/
structure Addressed (g : Graph α) : Prop where
  size : g.table.size = 8 * (g.boxes.size + 1)
  distinct : g.anchorVariables.Nodup
  complete : ∀ v, v < g.table.size ↔ v ∈ g.anchorVariables
  canvas : ∀ anchor, g.table.names[g.anchors.get anchor]? =
    some (Anchors.variableName canvasOwner anchor)
  boxes : ∀ b ∈ g.boxList, ∀ anchor,
    g.table.names[b.anchors.get anchor]? = some (Anchors.variableName b.id anchor)
  lookup : ∀ name v, g.table.lookup name = some v ↔ g.table.names[v]? = some name

theorem Keyed.map_id_boxList {g : Graph α} (h : g.Keyed) : g.boxList.map (·.id) = g.boxes.keys := by
  rw [boxList, List.map_map, ← Std.TreeMap.map_fst_toList_eq_keys]
  exact List.map_congr_left (keyed_iff.1 h)

/-- The variables of all anchors, by name. -/
theorem Naming.map_anchorVariables {g : Graph α} (h : g.Naming) (hkeyed : g.Keyed) :
    g.anchorVariables.map (g.table.names[·]?) =
      ((canvasOwner :: g.boxes.keys).flatMap Anchors.variableNames).map some := by
  have hanchors : ∀ (anchors : Anchors) (owner : String),
      (∀ anchor, g.table.names[anchors.get anchor]? = some (Anchors.variableName owner anchor)) →
      (Anchor.all.map anchors.get).map (g.table.names[·]?) =
        (Anchors.variableNames owner).map some := by
    intro anchors owner hnames
    rw [Anchors.variableNames, List.map_map, List.map_map]
    exact List.map_congr_left fun anchor _ => hnames anchor
  rw [anchorVariables, ← hkeyed.map_id_boxList, List.flatMap_cons, List.flatMap_cons,
    List.map_append, List.map_append, hanchors _ _ h.canvas, List.flatMap_map, List.flatMap_map,
    List.map_flatMap, List.map_flatMap]
  refine congrArg (_ ++ ·) (List.flatMap_congr fun b hb => ?_)
  obtain ⟨id, hbox⟩ := mem_boxList_iff.1 hb
  rw [hkeyed id b hbox]
  exact hanchors _ _ (h.boxes id b hbox)

/-- **References that speak of one variable are the same**, if no box owns the variables of the
canvas. -/
theorem Naming.denotes_inj {g : Graph α} (h : g.Naming) (hcanvas : g.box? canvasOwner = none)
    {r₁ r₂ : Reference} {v : Variable} (h₁ : g.Denotes r₁ v) (h₂ : g.Denotes r₂ v) : r₁ = r₂ := by
  -- either reference tells the name of the variable, and so its owner
  have howner : ∀ {r}, g.Denotes r v → ∃ head owner anchor, r = ⟨head, [Anchor.text anchor]⟩ ∧
      g.table.names[v]? = some (Anchors.variableName owner anchor) ∧
      (owner = canvasOwner ∧ head = canvasHead ∨ owner ≠ canvasOwner ∧ head = owner) := by
    intro r hr
    cases hr with
    | @box id b anchor hb =>
      refine ⟨id, id, anchor, rfl, h.boxes id b hb anchor, .inr ⟨?_, rfl⟩⟩
      rintro rfl
      simp [hcanvas] at hb
    | canvas anchor =>
      exact ⟨canvasHead, canvasOwner, anchor, rfl, h.canvas anchor, .inl ⟨rfl, rfl⟩⟩
  obtain ⟨head₁, owner₁, anchor₁, rfl, hname₁, hhead₁⟩ := howner h₁
  obtain ⟨head₂, owner₂, anchor₂, rfl, hname₂, hhead₂⟩ := howner h₂
  rw [hname₁, Option.some.injEq] at hname₂
  obtain ⟨rfl, rfl⟩ := Anchors.variableName_inj hname₂
  rcases hhead₁ with ⟨rfl, rfl⟩ | ⟨hne, rfl⟩ <;> rcases hhead₂ with ⟨heq, rfl⟩ | ⟨hne', rfl⟩
  · rfl
  · exact absurd rfl hne'
  · exact absurd heq hne
  · rfl

end Graph

/-- **The model of a well-referenced document** has an anchor for each variable. -/
theorem Document.WellReferenced.addressed [Scalar α] {d : Document α} (h : d.WellReferenced)
    (hnames : d.Lexical) (hnaming : d.model.Naming) (hkeyed : d.model.Keyed) :
    d.model.Addressed := by
  have htable := h.table_names hnames
  have hperm : (d.model.anchorVariables.map (d.model.table.names[·]?)).Perm
      (d.model.table.names.map some) := by
    rw [hnaming.map_anchorVariables hkeyed, htable]
    exact ((h.keys_perm.cons _).flatMap_right _).map _
  have hdistinct : d.model.anchorVariables.Nodup :=
    .of_map _ (hperm.symm.nodup (hnaming.nodup.map (Option.some_injective _)))
  have hlength : d.model.anchorVariables.length = d.model.table.size := by
    have hmapped := hperm.length_eq
    rwa [List.length_map, List.length_map] at hmapped
  have hlt : ∀ v ∈ d.model.anchorVariables, v < d.model.table.size := by
    intro v hv
    obtain ⟨name, -, hname⟩ := List.mem_map.1 (hperm.subset (List.mem_map.2 ⟨v, hv, rfl⟩))
    exact (List.getElem?_eq_some_iff.1 hname.symm).1
  refine ⟨?_, hdistinct, fun v => ?_, hnaming.canvas, ?_, fun _ _ =>
    VariableTable.lookup_eq_some_iff hnaming.nodup⟩
  · have hcount : d.model.boxes.size = d.boxNames.length := by
      rw [← Std.TreeMap.length_keys, h.keys_perm.length_eq]
    rw [VariableTable.size, htable, List.length_flatMap, hcount]
    simp [Anchors.variableNames, Anchor.all]
    omega
  · -- as many anchors as variables, and all of them different
    have hrange : d.model.anchorVariables.Perm (List.range d.model.table.size) :=
      (List.subperm_of_subset hdistinct fun v hv => List.mem_range.2 (hlt v hv)).perm_of_length_le
        (by rw [List.length_range, hlength])
    rw [hrange.mem_iff, List.mem_range]
  · intro b hb anchor
    obtain ⟨id, hbox⟩ := Graph.mem_boxList_iff.1 hb
    rw [hkeyed id b hbox]
    exact hnaming.boxes id b hbox anchor

/-! ### Sources -/

section Sources

variable [Scalar α] [Numeral α] {source : String} {d : Document α} {diagram : Diagram α}

/-- **Anchors never collide.** The variables of a diagram that was read are the anchors of its
canvas and of its boxes; a reference is resolved exactly if it speaks of one of these owners and of
one of the eight anchors, and different references speak of different variables. -/
theorem build_addressed (hread : parse source = .ok d) (hbuild : d.build = .ok diagram) :
    diagram.graph.Addressed ∧
      (∀ span r v, diagram.graph.resolve span r = .ok v ↔ diagram.graph.Denotes r v) ∧
      ∀ span₁ span₂ r₁ r₂ v, diagram.graph.resolve span₁ r₁ = .ok v →
        diagram.graph.resolve span₂ r₂ = .ok v → r₁ = r₂ := by
  have hnames := parse_lexical hread
  have hnaming := Document.build_naming hbuild
  have hkeyed := Document.build_keyed hbuild
  have hresolve : ∀ span r v, diagram.graph.resolve span r = .ok v ↔ diagram.graph.Denotes r v :=
    fun _ _ _ => Graph.resolve_eq_ok_iff (Document.build_unreserved hbuild)
  obtain ⟨hreferenced, rfl⟩ := (Document.build_eq_ok_iff hnames).1 hbuild
  have hcanvas : d.model.box? canvasOwner = none := by
    rw [← Option.not_isSome_iff_eq_none, hreferenced.closed.boxes]
    exact hnames.canvasOwner_not_mem
  refine ⟨hreferenced.addressed hnames hnaming hkeyed, hresolve, ?_⟩
  intro span₁ span₂ r₁ r₂ v h₁ h₂
  exact hnaming.denotes_inj hcanvas ((hresolve ..).1 h₁) ((hresolve ..).1 h₂)

end Sources

/-- Boxes with the names of an anchor and almost of the canvas. -/
def namesakes : String :=
  "box top\nbox graph-top \x7b text-color: red \x7d\nconstrain top.top>=graph.top"

theorem namesakes_addressed : ∃ (d : Document FixedPoint) (diagram : Diagram FixedPoint),
    parse namesakes = .ok d ∧ d.build = .ok diagram ∧ diagram.graph.Addressed ∧
      (∀ span r v, diagram.graph.resolve span r = .ok v ↔ diagram.graph.Denotes r v) ∧
      ∀ span₁ span₂ r₁ r₂ v, diagram.graph.resolve span₁ r₁ = .ok v →
        diagram.graph.resolve span₂ r₂ = .ok v → r₁ = r₂ := by
  obtain ⟨d, diagram, hread, hbuild⟩ := exists_built (α := FixedPoint) namesakes (by decide +kernel)
  exact ⟨d, diagram, hread, hbuild, build_addressed hread hbuild⟩

end Schematic
