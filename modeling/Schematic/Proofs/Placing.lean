import Mathlib
import Schematic.Placement.Requirement
import Schematic.Proofs.Keyed
import Schematic.Proofs.Meaning
import Schematic.Proofs.Outcome

/-!
# What the constraints ask for

The required constraints of a diagram, over the rationals, hold of exactly the assignments
that place canvas and boxes as intended and satisfy every equation of the source.

* `Anchors.CanvasPlaced`, `Anchors.BoxPlaced`: how canvas and boxes are to lie.
* `Graph.Denotes`: the variable that a reference stands for.
* `Graph.Satisfies`: an equation holds between the values of its sides.
* `Diagram.constraints_iff_placed`: the constraints ask for this, and for nothing else.
-/

namespace Schematic

/-- What a relation says of two numbers. -/
def Relation.Holds : Relation → Rat → Rat → Prop
  | .less, x, y => x < y
  | .lessOrEqual, x, y => x ≤ y
  | .equal, x, y => x = y
  | .greaterOrEqual, x, y => y ≤ x
  | .greater, x, y => y < x

/-- What a comparison says of two numbers. -/
def Comparison.Holds : Comparison → Rat → Rat → Prop
  | .lessOrEqual, x, y => x ≤ y
  | .equal, x, y => x = y
  | .greaterOrEqual, x, y => y ≤ x

/-- Whether an assignment satisfies a constraint as far as it is required. -/
def Constraint.Holds (x : Variable → Rat) : Constraint Rat Variable → Prop
  | .required left comparison right => comparison.Holds (left.value x) (right.value x)
  | .preferred _ _ => True

theorem Relation.holds_of_comparison? {relation : Relation} {comparison : Comparison}
    (h : relation.comparison? = some comparison) (a b : Rat) :
    comparison.Holds a b ↔ relation.Holds a b := by
  cases relation <;> simp only [comparison?, reduceCtorEq, Option.some.injEq] at h <;> subst h <;>
    rfl

/-! ### The values of what is compared -/

namespace Placement

variable (x : Variable → Rat) (v a b : Variable) (c : Rat)

@[simp] theorem value_var : (var v : LinearExpr Rat Variable).value x = x v := by
  simp [var, LinearExpr.ofKey, LinearExpr.value]

@[simp] theorem value_const : (const c : LinearExpr Rat Variable).value x = c := by
  simp [const, LinearExpr.ofConstant, LinearExpr.value]

@[simp] theorem value_shifted : (shifted v c).value x = x v + c := by
  simp [shifted, LinearExpr.value]

@[simp] theorem value_difference :
    (difference a b : LinearExpr Rat Variable).value x = x a - x b := by
  simp [difference, LinearExpr.value, sub_eq_add_neg]

@[simp] theorem value_middle :
    (middle a b : LinearExpr Rat Variable).value x = (x a + x b) / 2 := by
  simp only [middle, LinearExpr.value, Scalar.half, Scalar.one_rat, Scalar.two_rat,
    Scalar.zero_rat, List.map_cons, List.map_nil, List.sum_cons, List.sum_nil]
  ring

variable {x} {e f : LinearExpr Rat Variable}

@[simp] theorem holds_le : (le e f).Holds x ↔ e.value x ≤ f.value x := Iff.rfl

@[simp] theorem holds_ge : (ge e f).Holds x ↔ f.value x ≤ e.value x := Iff.rfl

@[simp] theorem holds_eq : (eq e f).Holds x ↔ e.value x = f.value x := Iff.rfl

@[simp] theorem holds_preferred : (Constraint.preferred e f).Holds x ↔ True := Iff.rfl

end Placement

/-! ### Canvas and boxes -/

namespace Anchors

/-- **How the canvas is to lie**: at the origin, with its centre in the middle. -/
structure CanvasPlaced (canvas : Anchors) (x : Variable → Rat) : Prop where
  left : x canvas.left = 0
  top : x canvas.top = 0
  right : 0 ≤ x canvas.right
  bottom : 0 ≤ x canvas.bottom
  width : x canvas.width = x canvas.right
  height : x canvas.height = x canvas.bottom
  centerX : x canvas.centerX = x canvas.right / 2
  centerY : x canvas.centerY = x canvas.bottom / 2

/-- **How a box is to lie**: as large as its label, with its centre in the middle and the
margin left between it and the edges of the canvas. -/
structure BoxPlaced (b canvas : Anchors) (size : Size Rat) (margin : Rat) (x : Variable → Rat) :
    Prop where
  right : x b.right = x b.left + size.width
  bottom : x b.bottom = x b.top + size.height
  width : x b.width = size.width
  height : x b.height = size.height
  centerX : x b.centerX = x b.left + size.width / 2
  centerY : x b.centerY = x b.top + size.height / 2
  leftMargin : margin ≤ x b.left
  topMargin : margin ≤ x b.top
  rightMargin : x b.right ≤ x canvas.right - margin
  bottomMargin : x b.bottom ≤ x canvas.bottom - margin

variable {b canvas : Anchors} {size : Size Rat} {margin : Rat} {x : Variable → Rat}

theorem canvasConstraints_iff :
    (∀ c ∈ canvas.canvasConstraints, Constraint.Holds x c) ↔ canvas.CanvasPlaced x := by
  simp only [canvasConstraints, List.forall_mem_cons, List.not_mem_nil, Placement.holds_le,
    Placement.holds_eq, Placement.holds_preferred, Placement.value_var, Placement.value_const,
    Placement.value_difference, Placement.value_middle, Scalar.zero_rat, false_imp_iff,
    implies_true, and_true]
  constructor
  · rintro ⟨hleft, hright, -, htop, hcenter, hbottom, hheight, hwidth, hx, hy⟩
    rw [hleft] at hright hwidth hx
    rw [htop] at hcenter hheight hy
    exact ⟨hleft, htop, hright, hcenter.trans hbottom, by linarith, by linarith, by linarith,
      by linarith⟩
  · intro h
    obtain ⟨hleft, htop, hright, hbottom, hwidth, hheight, hx, hy⟩ := h
    rw [hleft, htop, hwidth, hheight, hx, hy]
    refine ⟨rfl, hright, ?_, rfl, ?_, ?_, ?_, ?_, ?_, ?_⟩ <;> linarith

/-- On a canvas that lies as it is to, a box asks for its own place and for nothing else. -/
theorem boxConstraints_iff (hcanvas : canvas.CanvasPlaced x) (hwidth : 0 ≤ size.width)
    (hheight : 0 ≤ size.height) :
    (∀ c ∈ b.boxConstraints canvas size margin, Constraint.Holds x c) ↔
      b.BoxPlaced canvas size margin x := by
  simp only [boxConstraints, List.forall_mem_cons, List.not_mem_nil, Placement.holds_le,
    Placement.holds_ge, Placement.holds_eq, Placement.holds_preferred, Placement.value_var,
    Placement.value_const, Placement.value_shifted, Placement.value_difference, Scalar.zero_rat,
    Scalar.half, Scalar.two_rat, hcanvas.left, hcanvas.top, zero_add,
    false_imp_iff, implies_true, and_true]
  constructor
  · -- the order of edges and centres follows from the sizes, so only the rest is used
    rintro ⟨-, -, -, -, hleft, htop, hright, hbottom, -, -, -, -, hb, hy, hr, hx, hh, hw⟩
    exact ⟨hr, hb, by linarith, by linarith, hx, hy, hleft, htop, by linarith, by linarith⟩
  · intro h
    obtain ⟨hr, hb, hw, hh, hx, hy, hleft, htop, hright, hbottom⟩ := h
    refine ⟨?_, ?_, ?_, ?_, hleft, htop, ?_, ?_, ?_, ?_, ?_, ?_, hb, hy, hr, hx, ?_, ?_⟩ <;>
      linarith

end Anchors

/-! ### Equations -/

namespace Anchor

theorem ofText?_eq_some_iff {name : String} {anchor : Anchor} :
    ofText? name = some anchor ↔ anchor.text = name := by
  constructor
  · intro h
    unfold ofText? at h
    have htext := List.find?_some h
    exact eq_of_beq htext
  · rintro rfl
    cases anchor <;> decide +kernel

end Anchor

namespace Graph

/-- **The variable that a reference stands for**: an anchor of a box, or one of the canvas. -/
inductive Denotes {α : Type} (g : Graph α) : Reference → Variable → Prop
  | box {id : String} {b : DiagramBox} (anchor : Anchor) (h : g.box? id = some b) :
    g.Denotes ⟨id, [anchor.text]⟩ (b.anchors.get anchor)
  | canvas (anchor : Anchor) : g.Denotes ⟨canvasHead, [anchor.text]⟩ (g.anchors.get anchor)

theorem resolve_eq_ok_iff {α : Type} {g : Graph α} (hg : g.box? canvasHead = none) {span : Span}
    {name : Reference} {v : Variable} : g.resolve span name = .ok v ↔ g.Denotes name v := by
  constructor
  · intro h
    obtain ⟨head, tail⟩ := name
    unfold resolve at h
    split at h
    · simp at h
    · rename_i anchors hanchors
      split at h
      · rename_i text htext
        split at h
        · rename_i anchor hanchor
          obtain rfl := Except.ok.inj h
          obtain rfl : tail = [anchor.text] := by rw [Anchor.ofText?_eq_some_iff.1 hanchor, ← htext]
          unfold anchorsOf? at hanchors
          split at hanchors
          · rename_i hhead
            obtain rfl := Option.some.inj hanchors
            obtain rfl : head = canvasHead := hhead
            exact .canvas anchor
          · obtain ⟨b, hb, rfl⟩ := Option.map_eq_some_iff.1 hanchors
            exact .box anchor hb
        · simp at h
      · simp at h
  · intro h
    cases h with
    | @box id b anchor hb =>
      -- the name is not that of the canvas, since there is a box of this name
      have hid : id ≠ canvasHead := by
        rintro rfl
        simp [hg] at hb
      simp [resolve, anchorsOf?, hid, hb, Anchor.ofText?_eq_some_iff.2 rfl]
    | canvas anchor => simp [resolve, anchorsOf?, Anchor.ofText?_eq_some_iff.2 rfl]

variable {g : Graph Rat} {x : Variable → Rat}

/-- The value of a side, read from left to right, where every reference is worth what the
assignment gives to the variable it stands for. -/
def Reads (g : Graph Rat) (x : Variable → Rat) (side : List (Term Rat)) (v : Rat) : Prop :=
  ∃ vars, List.Forall₂ g.Denotes (Side.references side) vars ∧
    Side.value? side (vars.map x) = some v

/-- **An equation holds** between the values of its sides. -/
def Satisfies (g : Graph Rat) (x : Variable → Rat) (equation : Equation Rat) : Prop :=
  ∃ a b, g.Reads x equation.left a ∧ g.Reads x equation.right b ∧ equation.relation.Holds a b

theorem foldSide_reads (hg : g.box? canvasHead = none) {span : Span} {equation : Equation Rat}
    {side : List (Term Rat)} {e : LinearExpr Rat Variable}
    (h : g.foldSide span equation side = .ok e) (v : Rat) : g.Reads x side v ↔ v = e.value x := by
  have hfold : (Side.fold side).resolve (g.resolve span) = .ok e := by
    unfold foldSide at h
    cases hresolved : (Side.fold side).resolve (g.resolve span) with
    | error error => simp [hresolved, Except.mapError] at h
    | ok e' => simpa [hresolved, Except.mapError] using h
  obtain ⟨hkeys, hvalue⟩ := Side.resolve_fold hfold
  -- the variables of the side are determined by its references
  have hvars : ∀ vars, List.Forall₂ g.Denotes (Side.references side) vars ↔
      vars = e.terms.map (·.1) := by
    intro vars
    have hdenotes : (fun name v => g.resolve span name = .ok v) = g.Denotes := by
      funext name v
      exact propext (resolve_eq_ok_iff hg)
    rw [← hdenotes, ← mapM_eq_ok_iff, hkeys, Except.ok.injEq, eq_comm]
  simp only [Reads, hvars, exists_eq_left, hvalue, Option.some.injEq, eq_comm]

/-- What an equation asks for is that it holds. -/
theorem equationConstraint_holds (hg : g.box? canvasHead = none)
    {equation : Located (Equation Rat)} {c : Constraint Rat Variable}
    (h : g.equationConstraint equation = .ok c) : c.Holds x ↔ g.Satisfies x equation.value := by
  unfold equationConstraint at h
  obtain ⟨left, hleft, h⟩ := except_bind_eq_ok.1 h
  obtain ⟨right, hright, h⟩ := except_bind_eq_ok.1 h
  split at h
  · rename_i comparison hcomparison
    obtain rfl := Except.ok.inj h
    simp only [Constraint.Holds, Satisfies, foldSide_reads hg hleft, foldSide_reads hg hright,
      Relation.holds_of_comparison? hcomparison]
    constructor
    · intro hholds
      exact ⟨_, _, rfl, rfl, hholds⟩
    · rintro ⟨a, b, rfl, rfl, hholds⟩
      exact hholds
  · simp [throw, throwThe, MonadExceptOf.throw] at h

end Graph

/-! ### The whole layout -/

namespace Diagram

variable {d : Diagram Rat} {settings : LayoutSettings Rat} {measure : DiagramBox → Size Rat}
  {x : Variable → Rat}

/-- **The intended layout** of a diagram, given the sizes of its labels. -/
structure Placed (d : Diagram Rat) (settings : LayoutSettings Rat)
    (measure : DiagramBox → Size Rat) (x : Variable → Rat) : Prop where
  canvas : d.graph.anchors.CanvasPlaced x
  boxes : ∀ id b, d.graph.box? id = some b →
    b.anchors.BoxPlaced d.graph.anchors (measure b) settings.outerMargin x
  equations : ∀ equation ∈ d.equations, d.graph.Satisfies x equation.value

theorem frameConstraints_iff
    (hsize : ∀ b ∈ d.graph.boxList, 0 ≤ (measure b).width ∧ 0 ≤ (measure b).height) :
    (∀ c ∈ d.frameConstraints settings measure, c.Holds x) ↔
      d.graph.anchors.CanvasPlaced x ∧ ∀ id b, d.graph.box? id = some b →
        b.anchors.BoxPlaced d.graph.anchors (measure b) settings.outerMargin x := by
  simp only [frameConstraints, List.forall_mem_append, List.forall_mem_flatMap,
    Anchors.canvasConstraints_iff]
  rw [and_comm, and_congr_right_iff]
  intro hcanvas
  constructor
  · intro h id b hb
    have hmem : b ∈ d.graph.boxList := Graph.mem_boxList_iff.2 ⟨id, hb⟩
    exact (Anchors.boxConstraints_iff hcanvas (hsize b hmem).1 (hsize b hmem).2).1 (h b hmem)
  · intro h b hmem
    obtain ⟨id, hb⟩ := Graph.mem_boxList_iff.1 hmem
    exact (Anchors.boxConstraints_iff hcanvas (hsize b hmem).1 (hsize b hmem).2).2 (h id b hb)

theorem ok_mem_constraints_iff {c : Constraint Rat Variable} :
    .ok c ∈ d.constraints settings measure ↔ c ∈ d.frameConstraints settings measure ∨
      ∃ equation ∈ d.equations, d.graph.equationConstraint equation = .ok c := by
  simp only [constraints, List.mem_append, List.mem_map, Except.ok.injEq, exists_eq_right]

/-- **The constraints mean the intended layout.** For the diagram of any document, any margin
and any labels, if no equation is rejected, an assignment satisfies all required constraints
if and only if it places canvas and boxes as they are to lie and satisfies every equation. -/
theorem constraints_iff_placed {document : Document Rat} (hbuild : document.build = .ok d)
    (hsize : ∀ b ∈ d.graph.boxList, 0 ≤ (measure b).width ∧ 0 ≤ (measure b).height)
    (hequations : ∀ equation ∈ d.equations, ∃ c, d.graph.equationConstraint equation = .ok c) :
    (∀ c, .ok c ∈ d.constraints settings measure → c.Holds x) ↔ d.Placed settings measure x := by
  have hg := Document.build_unreserved hbuild
  have hframes : (∀ c ∈ d.frameConstraints settings measure, c.Holds x) ↔ _ :=
    frameConstraints_iff hsize
  simp only [ok_mem_constraints_iff]
  constructor
  · intro h
    obtain ⟨hcanvas, hboxes⟩ := hframes.1 fun c hc => h c (.inl hc)
    refine ⟨hcanvas, hboxes, ?_⟩
    intro equation hmem
    obtain ⟨c, hc⟩ := hequations equation hmem
    exact (Graph.equationConstraint_holds hg hc).1 (h c (.inr ⟨equation, hmem, hc⟩))
  · rintro ⟨hcanvas, hboxes, hall⟩ c (hc | ⟨equation, hmem, hc⟩)
    · exact hframes.2 ⟨hcanvas, hboxes⟩ c hc
    · exact (Graph.equationConstraint_holds hg hc).2 (hall equation hmem)

/-- Two boxes beside each other, the second one in the middle of the canvas. -/
def pair : Document Rat :=
  ⟨[⟨⟨.box ⟨"a", ⟨4, 5⟩⟩ [], none⟩, ⟨0, 5⟩⟩, ⟨⟨.box ⟨"b", ⟨10, 11⟩⟩ [], none⟩, ⟨6, 11⟩⟩,
    ⟨⟨.constrain ⟨.lessOrEqual, [.reference ⟨"a", ["right"]⟩, .operation .add, .constant 10],
      [.reference ⟨"b", ["left"]⟩], none⟩, none⟩, ⟨12, 44⟩⟩,
    ⟨⟨.constrain ⟨.equal, [.reference ⟨"graph", ["width"]⟩, .operation .divide, .constant 2],
      [.reference ⟨"b", ["centerX"]⟩], none⟩, none⟩, ⟨45, 83⟩⟩]⟩

/-- Labels of one size. -/
def uniform (_ : DiagramBox) : Size Rat := ⟨30, 20⟩

theorem pair_placed : ∃ d, pair.build = .ok d ∧
    ∀ x, (∀ c, .ok c ∈ d.constraints .standard uniform → c.Holds x) ↔
      d.Placed .standard uniform x := by
  have hread : (pair.build.toOption.map fun d => d.equations.all fun equation =>
      (d.graph.equationConstraint equation).toBool) = some true := by decide +kernel
  obtain ⟨d, hd, hall⟩ := Option.map_eq_some_iff.1 hread
  have hbuild := eq_ok_of_toOption hd
  refine ⟨d, hbuild, fun x => constraints_iff_placed hbuild ?_ ?_⟩
  · intro b _
    exact ⟨by simp [uniform], by simp [uniform]⟩
  · intro equation hmem
    have hok := List.all_eq_true.1 hall equation hmem
    cases hc : d.graph.equationConstraint equation with
    | error error => simp [hc, Except.toBool] at hok
    | ok c => exact ⟨c, rfl⟩

end Diagram

end Schematic
