import Schematic.Route.Grid

/-!
# Pictures of grids

A grid is drawn with one frame a cell. An edge of a frame is dashed where the cell may
be left and solid where it may not; the frame holds the column and below it the row.

* `AccessGrid.picture`: the drawing of a grid.
-/

namespace Schematic.AccessGrid

variable {α : Type}

/-- A text repeated. -/
def repeated (n : Nat) (text : String) : String := String.join (List.replicate n text)

/-- The top or bottom of a frame. -/
def edge (opens closes : String) (span : Nat) (free : Bool) : String :=
  opens ++ repeated span (if free then "┄" else "━") ++ closes

/-- The left or right of a frame. -/
def wall (free : Bool) : String := if free then "┆" else "┃"

/-- A number in so many places, as far to the right as it goes. -/
def padded (places n : Nat) : String :=
  let digits := toString n
  repeated (places - digits.length) " " ++ digits

/-- A line of a frame with a number in it. -/
def numberLine (places : Nat) (a : Access) (n : Nat) : String :=
  wall a.left ++ " " ++ padded places n ++ " " ++ wall a.right

/-- The four lines of a row of cells. -/
def pictureRow (places y : Nat) (row : List (Nat × Access)) : String :=
  let line := fun f : Nat × Access → String => String.join (row.map f) ++ "\n"
  line (fun (_, a) => edge "┌" "┐" (places + 2) a.up) ++
    line (fun (x, a) => numberLine places a x) ++
    line (fun (_, a) => numberLine places a y) ++
    line (fun (_, a) => edge "└" "┘" (places + 2) a.down)

/-- **The drawing of a grid**, four lines a row. -/
def picture (g : AccessGrid α) : String :=
  let places := max (toString g.width).length (toString g.height).length
  String.join ((List.range g.height).map fun y =>
    pictureRow places y ((List.range g.width).map fun x => (x, g.access ⟨x, y⟩)))

end Schematic.AccessGrid
