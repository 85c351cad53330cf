import Schematic.Proofs.Asking
import Schematic.Proofs.Content
import Schematic.Proofs.Resolving

/-!
# Reordered documents

The order of declarations makes no difference to a model, nor do comments. Two sources that
declare the same box styles and the same boxes in any order, and the same connectors and
constraints in one order, are both built or both refused. Their models have the same styles,
boxes, connectors and equations, and once variables are known by their names, the same is asked
of both layouts in the same order.

* `Document.Rearranged`: the documents that declare the same.
* `Document.Rearranged.wellReferenced`: either both are built or none.
* `Diagram.Alike`: the diagrams that are the same up to the numbers of variables.
* `build_rearranged`: documents that declare the same have diagrams that are alike.
-/

namespace Schematic

variable {α : Type}

/-! ### Documents that declare the same -/

/-- **Rearranged documents**: the same contents, with styles and boxes in any order, connectors
and constraints each in their order, and all of them mixed in any way. -/
structure Document.Rearranged (d₁ d₂ : Document α) : Prop where
  styles : (d₁.boxStyles.map Named.content).Perm (d₂.boxStyles.map Named.content)
  boxes : (d₁.boxes.map Named.content).Perm (d₂.boxes.map Named.content)
  connections : d₁.connections.map Connection.content = d₂.connections.map Connection.content
  equations : (d₁.equations.map fun e => e.value.content) = d₂.equations.map fun e => e.value.content

instance [DecidableEq α] (d₁ d₂ : Document α) : Decidable (d₁.Rearranged d₂) :=
  decidable_of_iff
    ((d₁.boxStyles.map Named.content).Perm (d₂.boxStyles.map Named.content) ∧
      (d₁.boxes.map Named.content).Perm (d₂.boxes.map Named.content) ∧
      d₁.connections.map Connection.content = d₂.connections.map Connection.content ∧
      (d₁.equations.map fun e => e.value.content) = d₂.equations.map fun e => e.value.content)
    ⟨fun ⟨hs, hb, hc, he⟩ => ⟨hs, hb, hc, he⟩, fun ⟨hs, hb, hc, he⟩ => ⟨hs, hb, hc, he⟩⟩

/-- What was declared is declared elsewhere with the same content. -/
theorem exists_of_perm {β γ : Type} {f : β → γ} {xs ys : List β} (h : (xs.map f).Perm (ys.map f))
    {y : β} (hy : y ∈ ys) : ∃ x ∈ xs, f x = f y :=
  List.mem_map.1 (h.mem_iff.2 (List.mem_map.2 ⟨y, hy, rfl⟩))

namespace Document.Rearranged

variable {d₁ d₂ : Document α} (h : d₁.Rearranged d₂)

include h

theorem symm : d₂.Rearranged d₁ :=
  ⟨h.styles.symm, h.boxes.symm, h.connections.symm, h.equations.symm⟩

theorem styleNames : d₁.styleNames.Perm d₂.styleNames := by
  have hnames := h.styles.map Prod.fst
  rwa [List.map_map, List.map_map] at hnames

theorem boxNames : d₁.boxNames.Perm d₂.boxNames := by
  have hnames := h.boxes.map Prod.fst
  rwa [List.map_map, List.map_map] at hnames

/-- **A rearranged document** is well referenced if the document was. -/
theorem wellReferenced (hreferenced : d₁.WellReferenced) : d₂.WellReferenced where
  styles_nodup := h.styleNames.nodup hreferenced.styles_nodup
  boxes_nodup := h.boxNames.nodup hreferenced.boxes_nodup
  unreserved := by
    rw [← h.boxNames.mem_iff]
    exact hreferenced.unreserved
  style_fields s hs := by
    obtain ⟨s', hs', hcontent⟩ := exists_of_perm h.styles hs
    have hfields := hreferenced.style_fields s' hs'
    rw [← Field.forall_contents fun _ => trivial] at hfields ⊢
    rwa [(Prod.mk.inj hcontent).2] at hfields
  box_fields b hb := by
    obtain ⟨b', hb', hcontent⟩ := exists_of_perm h.boxes hb
    have hfields := hreferenced.box_fields b' hb'
    simp only [h.styleNames.mem_iff] at hfields
    rw [← Field.forall_contents fun _ => trivial] at hfields ⊢
    rwa [(Prod.mk.inj hcontent).2] at hfields
  ends c hc := by
    obtain ⟨c', hc', hcontent⟩ := exists_of_perm (.of_eq h.connections) hc
    obtain ⟨hsource, hrest⟩ := Prod.mk.inj hcontent
    have hends := hreferenced.ends c' hc'
    rwa [hsource, (Prod.mk.inj hrest).1, h.boxNames.mem_iff, h.boxNames.mem_iff] at hends
  connect_fields c hc := by
    obtain ⟨c', hc', hcontent⟩ := exists_of_perm (.of_eq h.connections) hc
    have hfields := hreferenced.connect_fields c' hc'
    rw [← Field.forall_contents fun _ => trivial] at hfields ⊢
    rwa [(Prod.mk.inj (Prod.mk.inj hcontent).2).2] at hfields

/-- A style of one document is one of the other, be it declared or a box's own. -/
theorem mem_sheet {style : BoxStyle α} (hmem : style ∈ d₂.sheet) : style ∈ d₁.sheet := by
  rcases List.mem_append.1 hmem with hmem | hmem
  · obtain ⟨s, hs, rfl⟩ := List.mem_map.1 hmem
    obtain ⟨s', hs', hcontent⟩ := exists_of_perm h.styles hs
    refine List.mem_append_left _ (List.mem_map.2 ⟨s', hs', ?_⟩)
    exact Named.style_congr hcontent
  · obtain ⟨b, hb, hown⟩ := List.mem_filterMap.1 hmem
    obtain ⟨b', hb', hcontent⟩ := exists_of_perm h.boxes hb
    refine List.mem_append_right _ (List.mem_filterMap.2 ⟨b', hb', ?_⟩)
    rw [Named.ownStyle?_congr hcontent, hown]

/-- A box of one document is one of the other. -/
theorem mem_boxes {nb : NamedBox} {id : String} (hmem : ∃ b ∈ d₂.boxes, b.name.value = id ∧ b.box = nb) :
    ∃ b ∈ d₁.boxes, b.name.value = id ∧ b.box = nb := by
  obtain ⟨b, hb, hname, hbox⟩ := hmem
  obtain ⟨b', hb', hcontent⟩ := exists_of_perm h.boxes hb
  exact ⟨b', hb', (Named.name_congr hcontent).trans hname, (Named.box_congr hcontent).trans hbox⟩

end Document.Rearranged

/-! ### Diagrams that are alike -/

/-- What is asked of a layout, by the names of variables and without places. -/
def Diagram.namedConstraints [Scalar α] (d : Diagram α) (settings : LayoutSettings α)
    (measure : DiagramBox → Size α) : List (Except (LayoutError α) (Constraint α String)) :=
  (d.constraints settings measure).map d.graph.named

theorem Diagram.namedConstraints_eq [Scalar α] (d : Diagram α) (settings : LayoutSettings α)
    (measure : DiagramBox → Size α) : d.namedConstraints settings measure =
      ((d.frameConstraints settings measure).map (·.mapKeys d.graph.table.name)).map .ok ++
        d.equations.map fun e => d.graph.named (d.graph.equationConstraint e) := by
  simp only [namedConstraints, constraints, List.map_append, List.map_map]
  rfl

/-- **Diagrams that are alike**: they have the same styles, boxes, connectors and equations, and the
same is asked of their layouts, in one order, whatever the settings and the sizes of labels.
Variables are known by their names, and no two have the same. -/
structure Diagram.Alike [Scalar α] (d₁ d₂ : Diagram α) : Prop where
  names : d₁.graph.table.names.Nodup ∧ d₂.graph.table.names.Nodup
  styles : d₁.graph.styles.toList = d₂.graph.styles.toList
  boxes : d₁.graph.namedBoxes = d₂.graph.namedBoxes
  arrows : d₁.graph.arrows = d₂.graph.arrows
  equations : (d₁.equations.map fun e => e.value.content) = d₂.equations.map fun e => e.value.content
  constraints : ∀ settings (size : String → Size α),
    d₁.namedConstraints settings (fun b => size b.label) =
      d₂.namedConstraints settings (fun b => size b.label)

section Alike

variable [Scalar α] {d₁ d₂ : Diagram α}

/-- What is asked by boxes and the canvas, if boxes and canvas have anchors of the same names. -/
theorem frameConstraints_congr (h₁ : d₁.graph.Naming) (h₂ : d₂.graph.Naming)
    (hboxes : d₁.graph.namedBoxes = d₂.graph.namedBoxes) (settings : LayoutSettings α)
    (size : String → Size α) :
    (d₁.frameConstraints settings fun b => size b.label).map (·.mapKeys d₁.graph.table.name) =
      (d₂.frameConstraints settings fun b => size b.label).map (·.mapKeys d₂.graph.table.name) := by
  have hcanvas : ∀ anchor, d₁.graph.table.name (d₁.graph.anchors.get anchor) =
      d₂.graph.table.name (d₂.graph.anchors.get anchor) := by
    intro anchor
    rw [VariableTable.name_eq (h₁.canvas anchor), VariableTable.name_eq (h₂.canvas anchor)]
  rw [Diagram.frameConstraints, Diagram.frameConstraints, List.map_append, List.map_append,
    Anchors.canvasConstraints_congr hcanvas, List.map_flatMap, List.map_flatMap, List.flatMap_def,
    List.flatMap_def]
  refine congrArg (·.flatten ++ _) (map_eq_map_of hboxes fun b₁ _ b₂ _ hbox => ?_)
  obtain ⟨-, hlabel, -, hanchors⟩ := NamedBox.mk.inj hbox
  rw [hlabel]
  exact Anchors.boxConstraints_congr (congrFun hanchors) hcanvas _ _

/-- What is asked by equations, if the same boxes are there. -/
theorem equationConstraints_congr (h₁ : d₁.graph.Naming) (h₂ : d₂.graph.Naming)
    (hkeys : ∀ id, (d₁.graph.box? id).isSome ↔ (d₂.graph.box? id).isSome)
    (hequations : (d₁.equations.map fun e => e.value.content) =
      d₂.equations.map fun e => e.value.content)
    (hlinear : ∀ e ∈ d₁.equations, Side.Linear e.value.left ∧ Side.Linear e.value.right) :
    (d₁.equations.map fun e => d₁.graph.named (d₁.graph.equationConstraint e)) =
      d₂.equations.map fun e => d₂.graph.named (d₂.graph.equationConstraint e) := by
  have hspoken : d₁.graph.spoken = d₂.graph.spoken := by
    funext r
    simp only [Graph.spoken, Graph.owner?, hkeys]
  refine map_eq_map_of hequations fun e₁ hmem e₂ _ hcontent => ?_
  obtain ⟨hrelation, hleft, hright, -⟩ := Equation.mk.inj hcontent
  obtain ⟨⟨x, hx⟩, ⟨y, hy⟩⟩ :=
    And.imp Side.exists_fold_iff.2 Side.exists_fold_iff.2 (hlinear e₁ hmem)
  rw [Graph.named_equationConstraint, Graph.named_equationConstraint, ← hrelation, ← hleft, ← hright,
    h₁.namedSide_eq hx, h₁.namedSide_eq hy, h₂.namedSide_eq hx, h₂.namedSide_eq hy, hspoken]

end Alike

/-! ### Sources that declare the same -/

section Sources

variable [Scalar α] [Numeral α] {source₁ source₂ : String} {d₁ d₂ : Document α}

/-- The diagrams of rearranged documents are alike. -/
theorem Document.Rearranged.alike (h₁ : parse source₁ = .ok d₁) (h₂ : parse source₂ = .ok d₂)
    (h : d₁.Rearranged d₂) {diagram₁ diagram₂ : Diagram α} (hbuild₁ : d₁.build = .ok diagram₁)
    (hbuild₂ : d₂.build = .ok diagram₂) : diagram₁.Alike diagram₂ := by
  have hnaming₁ := build_naming hbuild₁
  have hnaming₂ := build_naming hbuild₂
  have hnames₁ := parse_lexical h₁
  have hnames₂ := parse_lexical h₂
  obtain ⟨hreferenced₁, hmodel₁⟩ := (build_eq_ok_iff hnames₁).1 hbuild₁
  obtain ⟨hreferenced₂, hmodel₂⟩ := (build_eq_ok_iff hnames₂).1 hbuild₂
  have hbox : ∀ id, (diagram₁.graph.box? id).map (·.named diagram₁.graph.table) =
      (diagram₂.graph.box? id).map (·.named diagram₂.graph.table) := by
    intro id
    refine Option.ext fun nb => ?_
    rw [box?_named_iff hnames₁ hbuild₁, box?_named_iff hnames₂ hbuild₂]
    exact ⟨h.symm.mem_boxes, h.mem_boxes⟩
  have hboxes : diagram₁.graph.namedBoxes = diagram₂.graph.namedBoxes := Graph.boxList_map_eq hbox
  have hequations : (diagram₁.equations.map fun e => e.value.content) =
      diagram₂.equations.map fun e => e.value.content := by
    rw [build_equations hbuild₁, build_equations hbuild₂, h.equations]
  refine ⟨⟨hnaming₁.nodup, hnaming₂.nodup⟩, ?_, hboxes, ?_, hequations, fun settings size => ?_⟩
  · rw [← hmodel₁, ← hmodel₂, model_styles, model_styles]
    refine StyleSheet.toList_eq fun id => Option.ext fun style => ?_
    rw [StyleSheet.get?_ofList_iff (hreferenced₁.sheet_nodup hnames₁),
      StyleSheet.get?_ofList_iff (hreferenced₂.sheet_nodup hnames₂)]
    exact and_congr_left' ⟨h.symm.mem_sheet, h.mem_sheet⟩
  · rw [← hmodel₁, ← hmodel₂, model_arrows, model_arrows]
    exact map_eq_map_of h.connections fun _ _ _ _ => Connection.arrow_congr
  · have hkeys : ∀ id, (diagram₁.graph.box? id).isSome ↔ (diagram₂.graph.box? id).isSome := by
      intro id
      rw [← Option.isSome_map, hbox id, Option.isSome_map]
    have hlinear : ∀ e ∈ diagram₁.equations, Side.Linear e.value.left ∧ Side.Linear e.value.right := by
      intro e hmem
      rw [build_equations hbuild₁] at hmem
      obtain ⟨parts, hparts⟩ := parse_equations h₁ e hmem
      exact (Equation.ofParts_eq_ok_iff.1 hparts).2
    have hframe := frameConstraints_congr hnaming₁ hnaming₂ hboxes settings size
    have hasked := equationConstraints_congr hnaming₁ hnaming₂ hkeys hequations hlinear
    rw [Diagram.namedConstraints_eq, Diagram.namedConstraints_eq, hframe, hasked]

/-- **The order of declarations makes no difference**, nor do comments: sources that declare the
same are both built or both refused, and their diagrams are alike. -/
theorem build_rearranged (h₁ : parse source₁ = .ok d₁) (h₂ : parse source₂ = .ok d₂)
    (h : d₁.Rearranged d₂) :
    ((∃ diagram, d₁.build = .ok diagram) ↔ ∃ diagram, d₂.build = .ok diagram) ∧
      ∀ diagram₁ diagram₂, d₁.build = .ok diagram₁ → d₂.build = .ok diagram₂ →
        diagram₁.Alike diagram₂ := by
  constructor
  · rw [exists_build_iff h₁, exists_build_iff h₂]
    exact ⟨h.wellReferenced, h.symm.wellReferenced⟩
  · intro diagram₁ diagram₂ hbuild₁ hbuild₂
    exact h.alike h₁ h₂ hbuild₁ hbuild₂

end Sources

/-- Two boxes, one of them with a colour of its own, a connector and an equation. -/
def tidy : String :=
  "box-style s\x7b\x7d\nbox a\x7bstyle:s;text-color:red\x7d\nbox b\nconnect a b\x7b\x7d\n" ++
    "constrain a.right<=b.left"

/-- The same in another order and with comments. -/
def shuffled : String :=
  "connect a b\x7b\x7d\nbox b\nconstrain a.right<=b.left//gap\n" ++
    "box a\x7b//first\nstyle:s;text-color:red\x7d\nbox-style s\x7b\x7d"

theorem shuffled_alike : ∃ (d₁ d₂ : Document FixedPoint) (diagram₁ diagram₂ : Diagram FixedPoint),
    parse tidy = .ok d₁ ∧ parse shuffled = .ok d₂ ∧ d₁.Rearranged d₂ ∧
      d₁.build = .ok diagram₁ ∧ d₂.build = .ok diagram₂ ∧ diagram₁.Alike diagram₂ := by
  have hread : ((parse (α := FixedPoint) tidy).toOption.bind fun d₁ =>
      (parse (α := FixedPoint) shuffled).toOption.bind fun d₂ =>
        if d₁.Rearranged d₂ then d₁.build.toOption else none).isSome := by decide +kernel
  obtain ⟨diagram₁, hdiagram⟩ := Option.isSome_iff_exists.1 hread
  obtain ⟨d₁, hd₁, hdiagram⟩ := Option.bind_eq_some_iff.1 hdiagram
  obtain ⟨d₂, hd₂, hdiagram⟩ := Option.bind_eq_some_iff.1 hdiagram
  obtain ⟨hrearranged, hbuild₁⟩ := Option.ite_none_right_eq_some.1 hdiagram
  have hd₁ := eq_ok_of_toOption hd₁
  have hd₂ := eq_ok_of_toOption hd₂
  have hbuild₁ := eq_ok_of_toOption hbuild₁
  -- that the second one is built as well is part of the theorem
  obtain ⟨hbuilt, halike⟩ := build_rearranged hd₁ hd₂ hrearranged
  obtain ⟨diagram₂, hbuild₂⟩ := hbuilt.1 ⟨diagram₁, hbuild₁⟩
  exact ⟨d₁, d₂, diagram₁, diagram₂, hd₁, hd₂, hrearranged, hbuild₁, hbuild₂,
    halike diagram₁ diagram₂ hbuild₁ hbuild₂⟩

end Schematic
