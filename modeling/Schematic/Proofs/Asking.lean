import Schematic.Placement.Requirement
import Schematic.Proofs.Linearity
import Schematic.Proofs.Naming
import Schematic.Proofs.Outcome

/-!
# What layouts ask for, by names

Once variables are known by their names, what is asked of a layout follows from the names of
anchors and from what references speak of; the numbers of variables play no part.

* `LayoutError.bare`: an error without its place.
* `Anchors.boxConstraints_congr`, `Anchors.canvasConstraints_congr`: what boxes and the canvas
  ask for.
* `Graph.Naming.namedSide_eq`: what a linear side comes to.
* `Graph.named_equationConstraint`: what an equation asks for.
-/

namespace Schematic

variable {α : Type}

/-- An error without the place it is at. -/
def LayoutError.bare : LayoutError α → LayoutError α
  | undefined name _ => undefined name ⟨0, 0⟩
  | unsupportedField key declaration _ => unsupportedField key declaration ⟨0, 0⟩
  | duplicate declaration name _ => duplicate declaration name ⟨0, 0⟩
  | reservedName name _ => reservedName name ⟨0, 0⟩
  | equation error => equation error
  | unsupportedRelation relation _ => unsupportedRelation relation ⟨0, 0⟩
  | solver error => solver error

variable [Scalar α]

/-! ### Boxes and the canvas -/

namespace Anchors

open Placement

variable {f₁ f₂ : Variable → String} {b₁ b₂ c₁ c₂ : Anchors}

/-- **What a box asks for** depends on the names of its anchors and of the canvas's. -/
theorem boxConstraints_congr (hbox : ∀ anchor, f₁ (b₁.get anchor) = f₂ (b₂.get anchor))
    (hcanvas : ∀ anchor, f₁ (c₁.get anchor) = f₂ (c₂.get anchor)) (size : Size α) (margin : α) :
    (b₁.boxConstraints c₁ size margin).map (·.mapKeys f₁) =
      (b₂.boxConstraints c₂ size margin).map (·.mapKeys f₂) := by
  have htop := hbox .top
  have hcenterY := hbox .centerY
  have hbottom := hbox .bottom
  have hleft := hbox .left
  have hcenterX := hbox .centerX
  have hright := hbox .right
  have hheight := hbox .height
  have hwidth := hbox .width
  have hcanvasTop := hcanvas .top
  have hcanvasBottom := hcanvas .bottom
  have hcanvasLeft := hcanvas .left
  have hcanvasRight := hcanvas .right
  simp only [get] at *
  simp only [boxConstraints, le, ge, eq, var, const, shifted, difference, LinearExpr.ofKey,
    LinearExpr.ofConstant, List.map_cons, List.map_nil, Constraint.mapKeys, LinearExpr.mapKeys, *]

/-- **What the canvas asks for** depends on the names of its anchors. -/
theorem canvasConstraints_congr (hcanvas : ∀ anchor, f₁ (c₁.get anchor) = f₂ (c₂.get anchor)) :
    (c₁.canvasConstraints (α := α)).map (·.mapKeys f₁) = c₂.canvasConstraints.map (·.mapKeys f₂) := by
  have htop := hcanvas .top
  have hcenterY := hcanvas .centerY
  have hbottom := hcanvas .bottom
  have hleft := hcanvas .left
  have hcenterX := hcanvas .centerX
  have hright := hcanvas .right
  have hheight := hcanvas .height
  have hwidth := hcanvas .width
  simp only [get] at *
  simp only [canvasConstraints, le, eq, var, const, difference, middle, LinearExpr.ofKey,
    LinearExpr.ofConstant, List.map_cons, List.map_nil, Constraint.mapKeys, LinearExpr.mapKeys, *]

end Anchors

/-! ### Equations -/

namespace Graph

/-- One side of an equation, by the names of variables and without places. -/
def namedSide (g : Graph α) (span : Span) (equation : Equation α) (side : List (Term α)) :
    Except (LayoutError α) (LinearExpr α String) :=
  ((g.foldSide span equation side).map (·.mapKeys g.table.name)).mapError LayoutError.bare

/-- What an equation asks for, by the names of variables and without places. -/
def named (g : Graph α) (asked : Except (LayoutError α) (Constraint α Variable)) :
    Except (LayoutError α) (Constraint α String) :=
  (asked.map (·.mapKeys g.table.name)).mapError LayoutError.bare

/-- **A linear side** comes to its expression over what its references speak of. -/
theorem Naming.namedSide_eq {g : Graph α} (h : g.Naming) {span : Span} {equation : Equation α}
    {side : List (Term α)} {x : LinearExpr α Reference} (hx : (Side.fold side).result = .ok x) :
    g.namedSide span equation side =
      (((Side.fold side).asked.mapM g.spoken).map fun names =>
        ⟨names.zip (x.terms.map (·.2)), x.constant⟩).mapError (.undefined · ⟨0, 0⟩) := by
  have hkeys : ((Side.fold side).asked.mapM (g.resolve span)).map (List.map g.table.name) =
      ((Side.fold side).asked.mapM g.spoken).mapError (.undefined · span) :=
    mapM_map_eq_mapError (h.resolve_map span) _
  rw [namedSide, foldSide, Folded.resolve_eq, hx]
  cases hfound : (Side.fold side).asked.mapM (g.resolve span) <;>
    cases hspoken : (Side.fold side).asked.mapM g.spoken <;> rw [hfound, hspoken] at hkeys
  case error.error error name =>
    obtain rfl : error = .undefined name span := Except.error.inj hkeys
    rfl
  case error.ok => cases hkeys
  case ok.error => cases hkeys
  case ok.ok keys names =>
    obtain rfl : keys.map g.table.name = names := Except.ok.inj hkeys
    simp only [Except.mapError, Except.map, LinearExpr.mapKeys, List.zip_map_left]
    rfl

/-- **What an equation asks for**: its sides, compared as it says. -/
theorem named_equationConstraint (g : Graph α) (equation : Located (Equation α)) :
    g.named (g.equationConstraint equation) = (do
      let left ← g.namedSide equation.span equation.value equation.value.left
      let right ← g.namedSide equation.span equation.value equation.value.right
      match equation.value.relation.comparison? with
      | some comparison => return .required left comparison right
      | none => throw (.unsupportedRelation equation.value.relation ⟨0, 0⟩)) := by
  unfold equationConstraint namedSide named
  cases g.foldSide equation.span equation.value equation.value.left with
  | error error => rfl
  | ok left =>
    cases g.foldSide equation.span equation.value equation.value.right with
    | error error => rfl
    | ok right => cases equation.value.relation <;> rfl

end Graph

end Schematic
