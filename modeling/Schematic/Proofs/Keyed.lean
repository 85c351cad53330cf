import Mathlib
import Schematic.Model.Build
import Schematic.Route.Connector

/-!
# Boxes by name

A model keeps every box under its own name, however it was built, so the obstacles of a
connector are the frames of all boxes but its target.

* `Graph.Keyed`: every box is kept under its name.
* `Document.build_induction`: what holds of the models of documents.
* `Document.build_keyed`, `Document.build_unreserved`: their boxes are kept under their names,
  and none has the name of the canvas.
* `SolvedGraph.mem_obstacles_iff`: the obstacles of a connector.
-/

namespace Schematic

variable {α : Type}

namespace Graph

/-- **Every box is kept under its name.** -/
def Keyed (g : Graph α) : Prop := ∀ id b, g.box? id = some b → b.id = id

theorem keyed_empty : (Graph.empty : Graph α).Keyed := by
  intro id b h
  have hnone : (Graph.empty : Graph α).box? id = none := Std.TreeMap.getElem?_emptyc
  rw [hnone] at h
  exact absurd h (by simp)

/-- The boxes after one was added: the new one under its name, and those that were there. -/
theorem box?_addBox {g g' : Graph α} {id label : String} {style : Option String}
    (hadd : g.addBox id label style = some g') (id' : String) :
    g'.box? id' = if id = id' then some ⟨id, label, style, (Anchors.intern id g.table).1⟩
      else g.box? id' := by
  unfold Graph.addBox at hadd
  split at hadd
  · simp at hadd
  · obtain rfl := Option.some.inj hadd
    rw [box?, Std.TreeMap.getElem?_insert]
    simp only [compare_eq_iff_eq]
    rfl

theorem Keyed.addBox {g g' : Graph α} {id label : String} {style : Option String} (h : g.Keyed)
    (hadd : g.addBox id label style = some g') : g'.Keyed := by
  intro id' b hb
  rw [box?_addBox hadd] at hb
  split at hb
  · obtain rfl := Option.some.inj hb
    assumption
  · exact h id' b hb

theorem mem_boxList_iff {g : Graph α} {b : DiagramBox} :
    b ∈ g.boxList ↔ ∃ id, g.box? id = some b := by
  simp only [boxList, List.mem_map, Prod.exists, Std.TreeMap.mem_toList_iff_getElem?_eq_some, box?,
    exists_eq_right]

theorem keyed_iff {g : Graph α} : g.Keyed ↔ ∀ p ∈ g.boxes.toList, p.2.id = p.1 := by
  simp only [Keyed, box?, Prod.forall, Std.TreeMap.mem_toList_iff_getElem?_eq_some]

/-! ### Models of documents -/

/-- What every step of a fold keeps, the fold keeps, if it succeeds. -/
theorem foldlM_induction {ε β σ : Type} {P : σ → Prop} {f : σ → β → Except ε σ}
    (hstep : ∀ a b a', P a → f a b = .ok a' → P a') {xs : List β} {a a' : σ} (ha : P a)
    (h : xs.foldlM f a = .ok a') : P a' := by
  induction xs generalizing a with
  | nil =>
    obtain rfl : a = a' := by simpa [pure, Except.pure] using h
    exact ha
  | cons x xs ih =>
    rw [List.foldlM_cons, except_bind_eq_ok] at h
    obtain ⟨b, hb, h⟩ := h
    exact ih (hstep a x b ha hb) h

theorem declareStyle_induction {P : Graph α → Prop} (hstyle : ∀ g style, P g → P (g.addStyle style))
    {g g' : Graph α} {declaration : Named α} (hg : P g)
    (hok : g.declareStyle declaration = .ok g') : P g' := by
  rw [Graph.declareStyle, except_bind_eq_ok] at hok
  obtain ⟨style, -, hok⟩ := hok
  split at hok
  · simp [bind, Except.bind, throw, throwThe, MonadExceptOf.throw] at hok
  · obtain rfl := Except.ok.inj hok
    exact hstyle g style hg

theorem declareBox_induction {P : Graph α → Prop} (hstyle : ∀ g style, P g → P (g.addStyle style))
    (hbox : ∀ g g' id label style, P g → id ≠ canvasHead → g.addBox id label style = some g' → P g')
    {g g' : Graph α} {declaration : Named α} (hg : P g)
    (hok : g.declareBox declaration = .ok g') : P g' := by
  simp only [Graph.declareBox] at hok
  split at hok
  · simp [bind, Except.bind, throw, throwThe, MonadExceptOf.throw] at hok
  · rename_i hid
    simp only [except_bind_eq_ok] at hok
    obtain ⟨said, -, hok⟩ := hok
    -- the box may get a style of its own first
    have hstyled : P (if said.setsColor then
        (g.addStyle (said.ownStyle declaration.name.value),
          some (BoxStyle.ownId declaration.name.value))
        else (g, said.style)).1 := by
      split
      · exact hstyle g _ hg
      · exact hg
    split at hok
    · rename_i hadd
      obtain rfl := Except.ok.inj hok
      exact hbox _ _ _ _ _ hstyled hid hadd
    · simp [throw, throwThe, MonadExceptOf.throw] at hok

theorem declareArrow_induction [Scalar α] {P : Graph α → Prop}
    (harrow : ∀ g arrow, P g → P (g.addArrow arrow)) {g g' : Graph α} {declaration : Connection α}
    (hg : P g) (hok : g.declareArrow declaration = .ok g') : P g' := by
  rw [Graph.declareArrow, except_bind_eq_ok] at hok
  obtain ⟨arrow, -, hok⟩ := hok
  obtain rfl := Except.ok.inj hok
  exact harrow g arrow hg

end Graph

/-- **What building keeps** is what styles, boxes of any other name than the canvas's and
connectors keep. -/
theorem Document.build_induction [Scalar α] {P : Graph α → Prop} (hempty : P .empty)
    (hstyle : ∀ g style, P g → P (g.addStyle style))
    (hbox : ∀ g g' id label style, P g → id ≠ canvasHead → g.addBox id label style = some g' → P g')
    (harrow : ∀ g arrow, P g → P (g.addArrow arrow)) {d : Document α} {diagram : Diagram α}
    (h : d.build = .ok diagram) : P diagram.graph := by
  simp only [Document.build, except_bind_eq_ok] at h
  obtain ⟨g₁, h₁, g₂, h₂, g₃, h₃, h⟩ := h
  obtain rfl := Except.ok.inj h
  have hstyles : P g₁ := Graph.foldlM_induction
    (fun _ _ _ hg => Graph.declareStyle_induction hstyle hg) hempty h₁
  have hboxes : P g₂ := Graph.foldlM_induction
    (fun _ _ _ hg => Graph.declareBox_induction hstyle hbox hg) hstyles h₂
  exact Graph.foldlM_induction (fun _ _ _ hg => Graph.declareArrow_induction harrow hg) hboxes h₃

/-- **The model of a document** keeps every box under its name. -/
theorem Document.build_keyed [Scalar α] {d : Document α} {diagram : Diagram α}
    (h : d.build = .ok diagram) : diagram.graph.Keyed :=
  build_induction Graph.keyed_empty (fun _ _ hg => hg) (fun _ _ _ _ _ hg _ hadd => hg.addBox hadd)
    (fun _ _ hg => hg) h

/-- **No box has the name of the canvas**, so that references to it speak of nothing else. -/
theorem Document.build_unreserved [Scalar α] {d : Document α} {diagram : Diagram α}
    (h : d.build = .ok diagram) : diagram.graph.box? canvasHead = none := by
  refine build_induction (P := fun g => g.box? canvasHead = none) Std.TreeMap.getElem?_emptyc
    (fun _ _ hg => hg) ?_ (fun _ _ hg => hg) h
  intro g g' id label style hg hid hadd
  rw [g.box?_addBox hadd, if_neg hid, hg]

namespace SolvedGraph

variable [Scalar α] {s : SolvedGraph α} {id target : String} {r : Rect α}

theorem frame?_eq_some_iff (h : s.graph.Keyed) :
    s.frame? id = some r ↔ ∃ b, (b, r) ∈ s.boxFrames ∧ b.id = id := by
  simp only [frame?, boxFrames, List.mem_map, Option.map_eq_some_iff, Graph.mem_boxList_iff,
    Prod.mk.injEq]
  constructor
  · rintro ⟨b, hb, rfl⟩
    exact ⟨b, ⟨b, ⟨id, hb⟩, rfl, rfl⟩, h id b hb⟩
  · rintro ⟨b, ⟨_, ⟨id', hb⟩, rfl, rfl⟩, rfl⟩
    rw [h id' _ hb]
    exact ⟨_, hb, rfl⟩

/-- **The obstacles of a connector** are the frames of the boxes other than its target. -/
theorem mem_obstacles_iff (h : s.graph.Keyed) :
    r ∈ s.obstacles target ↔ ∃ id, id ≠ target ∧ s.frame? id = some r := by
  simp only [frame?_eq_some_iff h, obstacles, List.mem_map, List.mem_filter, bne_iff_ne]
  constructor
  · rintro ⟨⟨b, r⟩, ⟨hb, hne⟩, rfl⟩
    exact ⟨b.id, hne, b, hb, rfl⟩
  · rintro ⟨_, hne, b, hb, rfl⟩
    exact ⟨(b, r), ⟨hb, hne⟩, rfl⟩

end SolvedGraph

end Schematic
