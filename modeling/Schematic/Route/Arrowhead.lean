import Schematic.Geometry
import Schematic.Model.Graph

/-!
# Arrowheads

An end of a connector may be drawn as a filled triangle. Its tip is the end itself, and
its base lies back along the last segment.

* `Arrowhead.filledVee`: the triangle at the end of a segment.
* `Arrow.heads`: the triangles of a connector.
-/

namespace Schematic

/-- A filled triangle. -/
structure Arrowhead (α : Type) where
  tip : Point α
  left : Point α
  right : Point α
deriving DecidableEq, Repr

variable {α : Type} [Scalar α]

/-- **The triangle at the end of a segment.** The base is `3 + width` behind the tip and
`2 + width` wide to either side. Segments that are empty or not along an axis have none. -/
def Arrowhead.filledVee (tip start : Point α) (width : α) : Option (Arrowhead α) :=
  let length := ((3 : Nat) : α) + width
  let halfWidth := Scalar.two + width
  let dx := tip.x - start.x
  let dy := tip.y - start.y
  if dx == Scalar.zero && dy != Scalar.zero then
    let y := tip.y - Scalar.signum dy * length
    some ⟨tip, ⟨tip.x - halfWidth, y⟩, ⟨tip.x + halfWidth, y⟩⟩
  else if dy == Scalar.zero && dx != Scalar.zero then
    let x := tip.x - Scalar.signum dx * length
    some ⟨tip, ⟨x, tip.y - halfWidth⟩, ⟨x, tip.y + halfWidth⟩⟩
  else none

/-- The triangle at the first of points, if the end there is drawn as one. -/
def ArrowHead.draw (head : ArrowHead) (width : α) : List (Point α) → Option (Arrowhead α)
  | tip :: next :: _ => match head with
    | .filledVee => Arrowhead.filledVee tip next width
    | .line => none
  | _ => none

/-- **The triangles of a connector** along its points: at the source, then at the target. -/
def Arrow.heads (arrow : Arrow α) (points : List (Point α)) : List (Arrowhead α) :=
  (arrow.sourceHead.draw arrow.lineWidth points).toList ++
    (arrow.targetHead.draw arrow.lineWidth points.reverse).toList

end Schematic
