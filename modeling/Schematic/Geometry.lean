import Schematic.Number.Scalar

/-!
# Geometry

Points, sizes and rectangles of the plane, with `y` growing downwards. Intervals are
closed, so rectangles that touch along an edge meet.

* `Rect.meets`, `Rect.covers`, `Rect.holds`: how rectangles and points lie.
* `Rect.inset`: a smaller rectangle, a larger one for a negative distance.
-/

namespace Schematic

/-- A point of the plane. -/
@[ext] structure Point (α : Type) where
  x : α
  y : α
deriving DecidableEq, Repr

/-- Width and height. -/
structure Size (α : Type) where
  width : α
  height : α
deriving DecidableEq, Repr

/-- A rectangle with sides along the axes, given by its top left corner and its size. -/
structure Rect (α : Type) where
  origin : Point α
  size : Size α
deriving DecidableEq, Repr

variable {α : Type} [Scalar α]

/-- Points are compared by their coordinates. -/
instance : BEq (Point α) := ⟨fun p q => p.x == q.x && p.y == q.y⟩

/-- Sizes are compared side by side. -/
instance : BEq (Size α) := ⟨fun s t => s.width == t.width && s.height == t.height⟩

/-- Rectangles are compared by corner and size. -/
instance : BEq (Rect α) := ⟨fun r s => r.origin == s.origin && r.size == s.size⟩

namespace Rect

/-- The rectangle with the given corner and size. -/
def of (x y width height : α) : Rect α := ⟨⟨x, y⟩, ⟨width, height⟩⟩

/-- The least `x` of the rectangle. -/
@[inline] def left (r : Rect α) : α := r.origin.x

/-- The least `y` of the rectangle. -/
@[inline] def top (r : Rect α) : α := r.origin.y

/-- The greatest `x` of the rectangle. -/
@[inline] def right (r : Rect α) : α := r.origin.x + r.size.width

/-- The greatest `y` of the rectangle. -/
@[inline] def bottom (r : Rect α) : α := r.origin.y + r.size.height

/-- The middle of the rectangle. -/
@[inline] def center (r : Rect α) : Point α :=
  ⟨r.origin.x + Scalar.half r.size.width, r.origin.y + Scalar.half r.size.height⟩

/-- Whether two rectangles have a point in common. -/
@[inline] def meets (r s : Rect α) : Bool :=
  r.left ≤ s.right && s.left ≤ r.right && r.top ≤ s.bottom && s.top ≤ r.bottom

/-- Whether the second rectangle lies entirely within the first. -/
@[inline] def covers (r s : Rect α) : Bool :=
  r.left ≤ s.left && s.right ≤ r.right && r.top ≤ s.top && s.bottom ≤ r.bottom

/-- Whether a point lies in the rectangle. -/
@[inline] def holds (r : Rect α) (p : Point α) : Bool :=
  r.left ≤ p.x && p.x ≤ r.right && r.top ≤ p.y && p.y ≤ r.bottom

/-- The rectangle shrunk by `d` on every side, grown if `d` is negative. -/
@[inline] def inset (r : Rect α) (d : α) : Rect α :=
  of (r.origin.x + d) (r.origin.y + d) (r.size.width - Scalar.two * d)
    (r.size.height - Scalar.two * d)

/-- The rectangle moved by `dx` and `dy`. -/
@[inline] def offset (r : Rect α) (dx dy : α) : Rect α :=
  of (r.origin.x + dx) (r.origin.y + dy) r.size.width r.size.height

end Rect

end Schematic
