import Schematic.Proofs.Declaring
import Schematic.Proofs.Keyed

/-!
# Names of variables

The variables of a model are known by their names: no two have the same, and the names of
anchors tell whose they are. A table only grows, so a variable keeps its name.

* `VariableTable.Grows`: a table with further names behind those it had.
* `Anchors.intern_spec`: the anchors of an owner have the names of their variables.
* `Graph.Naming`, `Document.build_naming`: the names of variables in models of documents.
* `Graph.Naming.spoken`: the name of the variable that a reference speaks of.
-/

namespace Schematic

variable {α : Type}

namespace VariableTable

/-- **A table that has grown**: it has further names behind those it had, and they are new. -/
structure Grows (table table' : VariableTable) : Prop where
  names_prefix : table.names <+: table'.names
  nodup : table.names.Nodup → table'.names.Nodup

theorem Grows.refl (table : VariableTable) : table.Grows table := ⟨List.prefix_rfl, id⟩

theorem Grows.trans {t₁ t₂ t₃ : VariableTable} (h₁ : t₁.Grows t₂) (h₂ : t₂.Grows t₃) : t₁.Grows t₃ :=
  ⟨h₁.names_prefix.trans h₂.names_prefix, h₂.nodup ∘ h₁.nodup⟩

/-- A variable keeps its name. -/
theorem Grows.get {table table' : VariableTable} (h : table.Grows table') {v : Variable}
    {name : String} (hv : table.names[v]? = some name) : table'.names[v]? = some name := by
  obtain ⟨rest, hrest⟩ := h.names_prefix
  rw [← hrest, List.getElem?_append_left (List.getElem?_eq_some_iff.1 hv).1, hv]

theorem name_eq {table : VariableTable} {v : Variable} {name : String}
    (h : table.names[v]? = some name) : table.name v = name := by
  rw [VariableTable.name, h, Option.getD_some]

/-- **The variable of a name** has that name. -/
theorem exists_intern (name : String) (table : VariableTable) :
    ∃ v table', intern name table = (v, table') ∧ table.Grows table' ∧
      table'.names[v]? = some name := by
  refine ⟨_, _, rfl, ?_⟩
  cases hlookup : table.lookup name with
  | some v =>
    obtain ⟨hv, hname, -⟩ := List.findIdx?_eq_some_iff_getElem.1 hlookup
    refine ⟨.refl table, ?_⟩
    rw [List.getElem?_eq_getElem hv, beq_iff_eq.1 hname]
  | none =>
    have hnew : name ∉ table.names := by
      intro hmem
      have hne := List.findIdx?_eq_none_iff.1 hlookup name hmem
      simp at hne
    refine ⟨⟨List.prefix_append _ _, fun hnodup => ?_⟩, List.getElem?_concat_length⟩
    exact List.nodup_append_comm.1 (List.nodup_cons.2 ⟨hnew, hnodup⟩)

end VariableTable

/-- **The anchors of an owner** are variables with the names that the owner gives them. -/
theorem Anchors.intern_spec (owner : String) (table : VariableTable) :
    table.Grows (Anchors.intern owner table).2 ∧ ∀ anchor,
      (Anchors.intern owner table).2.names[(Anchors.intern owner table).1.get anchor]? =
        some (variableName owner anchor) := by
  obtain ⟨v₁, t₁, e₁, g₁, n₁⟩ := VariableTable.exists_intern (variableName owner .top) table
  obtain ⟨v₂, t₂, e₂, g₂, n₂⟩ := VariableTable.exists_intern (variableName owner .centerY) t₁
  obtain ⟨v₃, t₃, e₃, g₃, n₃⟩ := VariableTable.exists_intern (variableName owner .bottom) t₂
  obtain ⟨v₄, t₄, e₄, g₄, n₄⟩ := VariableTable.exists_intern (variableName owner .left) t₃
  obtain ⟨v₅, t₅, e₅, g₅, n₅⟩ := VariableTable.exists_intern (variableName owner .centerX) t₄
  obtain ⟨v₆, t₆, e₆, g₆, n₆⟩ := VariableTable.exists_intern (variableName owner .right) t₅
  obtain ⟨v₇, t₇, e₇, g₇, n₇⟩ := VariableTable.exists_intern (variableName owner .height) t₆
  obtain ⟨v₈, t₈, e₈, g₈, n₈⟩ := VariableTable.exists_intern (variableName owner .width) t₇
  have hintern : Anchors.intern owner table = (⟨v₁, v₂, v₃, v₄, v₅, v₆, v₇, v₈⟩, t₈) := by
    simp only [Anchors.intern, bind, StateT.bind, e₁, e₂, e₃, e₄, e₅, e₆, e₇, e₈]
    rfl
  rw [hintern]
  -- what has grown up to the last table, from each of the tables before it
  have s₆ := g₇.trans g₈
  have s₅ := g₆.trans s₆
  have s₄ := g₅.trans s₅
  have s₃ := g₄.trans s₄
  have s₂ := g₃.trans s₃
  have s₁ := g₂.trans s₂
  refine ⟨g₁.trans s₁, fun anchor => ?_⟩
  cases anchor with
  | top => exact s₁.get n₁
  | centerY => exact s₂.get n₂
  | bottom => exact s₃.get n₃
  | left => exact s₄.get n₄
  | centerX => exact s₅.get n₅
  | right => exact s₆.get n₆
  | height => exact g₈.get n₇
  | width => exact n₈

/-! ### Models -/

namespace Graph

/-- **The names of variables** in a model: no two are the same, and those of anchors are given by
their owners. -/
structure Naming (g : Graph α) : Prop where
  nodup : g.table.names.Nodup
  canvas : ∀ anchor, g.table.names[g.anchors.get anchor]? =
    some (Anchors.variableName canvasOwner anchor)
  boxes : ∀ id b, g.box? id = some b → ∀ anchor,
    g.table.names[b.anchors.get anchor]? = some (Anchors.variableName id anchor)

theorem naming_empty : (Graph.empty : Graph α).Naming := by
  obtain ⟨hgrows, hnames⟩ := Anchors.intern_spec canvasOwner .empty
  refine ⟨hgrows.nodup List.nodup_nil, hnames, fun id b hb => ?_⟩
  have hnone : (Graph.empty : Graph α).box? id = none := Std.TreeMap.getElem?_emptyc
  simp [hnone] at hb

theorem Naming.addBox {g g' : Graph α} {id label : String} {style : Option String} (h : g.Naming)
    (hadd : g.addBox id label style = some g') : g'.Naming := by
  obtain ⟨hgrows, hnames⟩ := Anchors.intern_spec id g.table
  obtain ⟨-, hg'⟩ := (addBox_eq_some_iff ..).1 hadd
  have htable : g'.table = (Anchors.intern id g.table).2 := by rw [← hg']
  have hanchors : g'.anchors = g.anchors := by rw [← hg']
  refine ⟨?_, ?_, fun id' b hb anchor => ?_⟩
  · rw [htable]
    exact hgrows.nodup h.nodup
  · intro anchor
    rw [htable, hanchors]
    exact hgrows.get (h.canvas anchor)
  · rw [htable]
    rw [box?_addBox hadd] at hb
    split at hb
    · rename_i hid
      obtain rfl := Option.some.inj hb
      rw [← hid]
      exact hnames anchor
    · exact hgrows.get (h.boxes id' b hb anchor)

end Graph

/-- **The models of documents** have names for their variables. -/
theorem Document.build_naming [Scalar α] {d : Document α} {diagram : Diagram α}
    (h : d.build = .ok diagram) : diagram.graph.Naming :=
  build_induction Graph.naming_empty (fun _ _ hg => ⟨hg.nodup, hg.canvas, hg.boxes⟩)
    (fun _ _ _ _ _ hg _ hadd => hg.addBox hadd) (fun _ _ hg => ⟨hg.nodup, hg.canvas, hg.boxes⟩) h

/-! ### References -/

/-- The name of the variable that a reference speaks of if it speaks of an owner: one anchor
follows the head. -/
def Reference.variableName? (r : Reference) (owner : String) : Option String :=
  match r.tail with
  | [name] => (Anchor.ofText? name).map (Anchors.variableName owner)
  | _ => none

/-- The owner that a head speaks of. -/
def Graph.owner? (g : Graph α) (head : String) : Option String :=
  if head = canvasHead then some canvasOwner
  else if (g.box? head).isSome then some head else none

/-- What a reference speaks of, by name: the variable, or what is undefined. -/
def Graph.spoken (g : Graph α) (r : Reference) : Except String String :=
  match g.owner? r.head with
  | none => .error r.head
  | some owner => match r.variableName? owner with
    | some name => .ok name
    | none => .error r.text

theorem Graph.Naming.anchorsOf? {g : Graph α} (h : g.Naming) (head : String) :
    (g.anchorsOf? head).map (fun anchors anchor => g.table.name (anchors.get anchor)) =
      (g.owner? head).map Anchors.variableName := by
  unfold Graph.anchorsOf? owner?
  split
  · simp only [Option.map_some, Option.some.injEq]
    funext anchor
    exact VariableTable.name_eq (h.canvas anchor)
  · cases hb : g.box? head with
    | none => simp
    | some b =>
      simp only [Option.map_some, Option.isSome_some, if_true, Option.some.injEq]
      funext anchor
      exact VariableTable.name_eq (h.boxes head b hb anchor)

/-- **Resolving by names**: the variable of a reference is the one that it speaks of. -/
theorem Graph.Naming.resolve_map {g : Graph α} (h : g.Naming) (span : Span) (r : Reference) :
    (g.resolve span r).map g.table.name = (g.spoken r).mapError (.undefined · span) := by
  have howner := h.anchorsOf? r.head
  unfold resolve spoken Reference.variableName?
  cases hanchors : g.anchorsOf? r.head with
  | none =>
    rw [hanchors, Option.map_none, eq_comm, Option.map_eq_none_iff] at howner
    rw [howner]
    rfl
  | some anchors =>
    rw [hanchors, Option.map_some, eq_comm, Option.map_eq_some_iff] at howner
    obtain ⟨owner, howner, hnames⟩ := howner
    rw [howner]
    rcases r.tail with _ | ⟨name, _ | ⟨name', rest⟩⟩
    · rfl
    · simp only [hnames]
      cases Anchor.ofText? name <;> rfl
    · rfl

end Schematic
