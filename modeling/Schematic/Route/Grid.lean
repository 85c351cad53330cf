import Schematic.Geometry
import Schematic.Route.Cell

/-!
# Access grids

To route a connector the canvas is tiled with square cells. For every cell the grid
says in which directions a route may leave it. Obstacles are grown by a margin; a cell
within a grown obstacle may always be left towards the two nearest edges of it.

* `Obstacle.escapes`: the directions that leave an obstacle the fastest.
* `AccessGrid.ofObstacles`: the grid of a canvas with obstacles.
* `AccessGrid.cellsIn`: the cells that lie wholly within a rectangle.
-/

namespace Schematic

/-- The directions in which a route may leave a cell. -/
structure Access where
  up : Bool
  right : Bool
  down : Bool
  left : Bool
deriving DecidableEq, Repr

namespace Access

/-- No way out. -/
def none : Access := ⟨false, false, false, false⟩

/-- Whether a route may leave in a direction. -/
def allows (a : Access) : Direction → Bool
  | .up => a.up
  | .right => a.right
  | .down => a.down
  | .left => a.left

/-- The access that allows the directions with a property. -/
@[specialize] def ofFn (allowed : Direction → Bool) : Access :=
  ⟨allowed .up, allowed .right, allowed .down, allowed .left⟩

theorem allows_ofFn (allowed : Direction → Bool) (d : Direction) :
    (ofFn allowed).allows d = allowed d := by
  cases d <;> rfl

end Access

variable {α : Type} [Scalar α]

/-- A way out of an obstacle: its direction, the distance to the edge there and the length
of that edge. -/
structure Exit (α : Type) where
  direction : Direction
  distance : α
  edge : α
deriving DecidableEq, Repr

namespace Exit

/-- Whether the first way out goes before the second: it is shorter, or as short with a
longer edge. -/
def better (a b : Exit α) : Bool :=
  a.distance < b.distance || !(decide (b.distance < a.distance)) && b.edge < a.edge

/-- Ways out in order, with another one before those that are not better. -/
def insert (a : Exit α) : List (Exit α) → List (Exit α)
  | [] => [a]
  | b :: rest => if b.better a then b :: insert a rest else a :: b :: rest

/-- Ways out from the best one down. Equally good ones keep their order. -/
def rank (exits : List (Exit α)) : List (Exit α) := exits.foldr insert []

end Exit

/-- A box that a route has to avoid, with the frame that keeps the margin to it. -/
structure Obstacle (α : Type) where
  frame : Rect α
  grown : Rect α
deriving DecidableEq, Repr

namespace Obstacle

/-- A box with a margin around it. -/
def ofFrame (margin : α) (frame : Rect α) : Obstacle α := ⟨frame, frame.inset (-margin)⟩

/-- The ways out of a frame from a point. -/
def exits (frame : Rect α) (p : Point α) : List (Exit α) :=
  let width := frame.right - frame.left
  let height := frame.bottom - frame.top
  [⟨.up, p.y - frame.top, width⟩, ⟨.down, frame.bottom - p.y, width⟩,
    ⟨.left, p.x - frame.left, height⟩, ⟨.right, frame.right - p.x, height⟩]

/-- The two directions that leave a frame the fastest from a point. -/
def escapes (frame : Rect α) (p : Point α) : List Direction :=
  ((Exit.rank (exits frame p)).take 2).map (·.direction)

/-- The first obstacle that covers a rectangle. -/
@[specialize] def covering? (obstacles : List (Obstacle α)) (r : Rect α) : Option (Obstacle α) :=
  obstacles.find? (·.grown.covers r)

/-- Whether some obstacle meets a rectangle. -/
@[specialize] def meets (obstacles : List (Obstacle α)) (r : Rect α) : Bool :=
  obstacles.any (·.grown.meets r)

end Obstacle

/-- The square of a cell. -/
@[specialize] def Cell.square (side : α) (c : Cell) : Rect α :=
  .of ((c.x : α) * side) ((c.y : α) * side) side side

/-- The square next to a square. -/
@[specialize] def nextSquare (side : α) (r : Rect α) : Direction → Rect α
  | .up => r.offset Scalar.zero (-side)
  | .right => r.offset side Scalar.zero
  | .down => r.offset Scalar.zero side
  | .left => r.offset (-side) Scalar.zero

/-- Whether a cell lies at the edge of a grid in a direction. -/
def Cell.atBorder (width height : Nat) (c : Cell) : Direction → Bool
  | .up => c.y == 0
  | .right => width ≤ c.x + 1
  | .down => height ≤ c.y + 1
  | .left => c.x == 0

/-- The access of a cell of a grid with obstacles. Where the obstacle around the cell
lets it go no further, the next cell has to be clear of all obstacles, or at least
outside of all if the cell is inside one. -/
@[specialize] def Cell.accessAmong (obstacles : List (Obstacle α)) (width height : Nat) (side : α)
    (c : Cell) : Access :=
  let square := c.square side
  let around := Obstacle.covering? obstacles square
  let free := match around with
    | some o => Obstacle.escapes o.frame square.center
    | none => []
  .ofFn fun d =>
    if c.atBorder width height d then false
    else if free.contains d then true
    else
      let next := nextSquare side square d
      around.isSome && (Obstacle.covering? obstacles next).isNone ||
        !Obstacle.meets obstacles next

/-- The access of all cells, row by row. -/
structure AccessGrid (α : Type) where
  width : Nat
  height : Nat
  cellSide : α
  cells : Array Access
  size_cells : cells.size = width * height

namespace AccessGrid

/-- The number of cells that reach as far as an edge. -/
def cellCount (side edge : α) : Nat :=
  if Scalar.zero < side then Scalar.ceilNat (edge / side) else 0

/-- **The grid of a canvas** with obstacles, each grown by a margin. -/
@[specialize] def ofObstacles (canvas : Rect α) (obstacles : List (Rect α)) (margin side : α) :
    AccessGrid α :=
  let width := cellCount side canvas.right
  let height := cellCount side canvas.bottom
  let grown := obstacles.map (Obstacle.ofFrame margin)
  ⟨width, height, side,
    Array.ofFn fun i : Fin (width * height) =>
      Cell.accessAmong grown width height side ⟨i % width, i / width⟩,
    by simp⟩

/-- Whether a grid has a cell. -/
def contains (g : AccessGrid α) (c : Cell) : Bool := c.x < g.width && c.y < g.height

/-- Whether a grid has no cells. -/
def isEmpty (g : AccessGrid α) : Bool := g.cells.isEmpty

omit [Scalar α] in
theorem index_lt {g : AccessGrid α} {c : Cell} (h : g.contains c = true) :
    c.y * g.width + c.x < g.cells.size := by
  simp only [contains, Bool.and_eq_true, decide_eq_true_eq] at h
  rw [g.size_cells, Nat.mul_comm g.width]
  calc c.y * g.width + c.x < c.y * g.width + g.width := by omega
    _ = (c.y + 1) * g.width := by rw [Nat.add_mul, Nat.one_mul]
    _ ≤ g.height * g.width := Nat.mul_le_mul_right _ (by omega)

/-- The access of a cell; outside the grid there is no way to go. -/
def access (g : AccessGrid α) (c : Cell) : Access :=
  if h : g.contains c = true then
    have := index_lt h
    g.cells[c.y * g.width + c.x]
  else .none

/-- The centre of a cell. -/
def center (g : AccessGrid α) (c : Cell) : Point α :=
  ⟨(c.x : α) * g.cellSide + Scalar.half g.cellSide,
    (c.y : α) * g.cellSide + Scalar.half g.cellSide⟩

/-- The cells of a range of columns and a range of rows, column by column. -/
def block (left right top bottom : Nat) : List Cell :=
  (List.range' left (right - left)).flatMap fun x =>
    (List.range' top (bottom - top)).map fun y => ⟨x, y⟩

/-- **The cells that lie wholly within a rectangle**, column by column. -/
def cellsIn (g : AccessGrid α) (r : Rect α) : List Cell :=
  if Scalar.zero < g.cellSide then
    block (Scalar.ceilNat (r.left / g.cellSide))
      (min (Scalar.floorNat (r.right / g.cellSide)) g.width)
      (Scalar.ceilNat (r.top / g.cellSide))
      (min (Scalar.floorNat (r.bottom / g.cellSide)) g.height)
  else []

end AccessGrid

end Schematic
