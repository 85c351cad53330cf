import Schematic.Placement.Solution
import Schematic.Route.Arrowhead
import Schematic.Route.Candidate
import Schematic.Route.Path
import Schematic.Route.Polyline

/-!
# Connectors

Connectors are routed one after the other, in the order of their declarations. Each
claims a cell of either box, looks for a shortest path between the two that stays clear
of the other boxes, and is left out if there is none.

* `Attempt`: what came of routing one connector.
* `SolvedGraph.routeArrow`, `SolvedGraph.routeAll`: one connector, all of them.
* `SolvedGraph.route`: what comes of one connector, with the register that it leaves.
-/

namespace Schematic

variable {α : Type}

/-- A connector that can be drawn. -/
structure Connector (α : Type) where
  /-- The number of its declaration, counted from zero. -/
  arrow : Nat
  points : List (Point α)
  arrowheads : List (Arrowhead α)
  /-- The cells that it claims of the source and of the target. -/
  ends : Cell × Cell
  lineWidth : α
deriving DecidableEq, Repr

/-- What came of routing a connector: the grid, the cells that it claims, and its line. -/
structure Attempt (α : Type) where
  grid : AccessGrid α
  /-- Nothing if one of the boxes has no cell. -/
  ends : Option (Cell × Cell)
  /-- Nothing if there is no way between the cells. -/
  line : Option (List (Point α))

/-- Whether boxes touch so that nothing is left to draw between them. -/
def Attempt.touches (a : Attempt α) : Bool :=
  match a.line with
  | some points => points.length < 2
  | none => false

/-- The connector of an attempt, if it can be drawn. -/
def Attempt.connector? [Scalar α] (a : Attempt α) (index : Nat) (arrow : Arrow α) :
    Option (Connector α) := do
  let ends ← a.ends
  let points ← a.line
  if points.length < 2 then none
  return ⟨index, points, arrow.heads points, ends, arrow.lineWidth⟩

namespace SolvedGraph

variable [Scalar α]

/-- The frames that the connectors to a box have to avoid: those of the other boxes. -/
def obstacles (s : SolvedGraph α) (target : String) : List (Rect α) :=
  (s.boxFrames.filter fun (b, _) => b.id != target).map (·.2)

/-- The grid of the connector with a number and a target. -/
def grid (s : SolvedGraph α) (settings : LayoutSettings α) (index : Nat) (target : String) :
    AccessGrid α :=
  .ofObstacles s.canvas (s.obstacles target) (settings.routingMargin index) settings.cellSide

/-- The cells that a connector claims of its boxes. The target is not asked if the source
has no cell. -/
def claimEnds (candidates : List Cell × List Cell) : StateM Register (Option (Cell × Cell)) := do
  match ← Register.pick candidates.1 with
  | none => return none
  | some start =>
    match ← Register.pick candidates.2 with
    | none => return none
    | some stop => return some (start, stop)

/-- The line of a connector between two cells. -/
def line? (g : AccessGrid α) (source target : Rect α) (ends : Cell × Cell) :
    Option (List (Point α)) := do
  let path ← g.shortestPath ends.1 ends.2
  let trimmed ← trim g path source target
  return dedup (simplify trimmed.points)

/-- **Route a connector.** There is no attempt if a box is missing. -/
def routeArrow (s : SolvedGraph α) (settings : LayoutSettings α) (index : Nat) (arrow : Arrow α) :
    StateM Register (Option (Attempt α)) := do
  match s.frame? arrow.source, s.frame? arrow.target with
  | some source, some target =>
    let grid := s.grid settings index arrow.target
    let ends ← claimEnds (grid.candidates source target)
    return some ⟨grid, ends, ends.bind (line? grid source target)⟩
  | _, _ => return none

/-- **What comes of one connector**, if anything, and the register that it leaves. -/
def route (s : SolvedGraph α) (settings : LayoutSettings α) (index : Nat) (arrow : Arrow α) :
    StateM Register (Option (Connector α)) := do
  return (← s.routeArrow settings index arrow).bind (·.connector? index arrow)

/-- Route connectors from a number on. -/
def routeFrom (s : SolvedGraph α) (settings : LayoutSettings α) :
    Nat → List (Arrow α) → StateM Register (List (Arrow α × Option (Attempt α)))
  | _, [] => return []
  | index, arrow :: rest => do
    let attempt ← s.routeArrow settings index arrow
    let attempts ← routeFrom s settings (index + 1) rest
    return (arrow, attempt) :: attempts

/-- The attempts to route the connectors of a diagram, in order. -/
def attempts (s : SolvedGraph α) (settings : LayoutSettings α) :
    List (Arrow α × Option (Attempt α)) :=
  (s.routeFrom settings 0 s.graph.arrows .empty).1

/-- The connectors that can be drawn among attempts. -/
def connectors (attempts : List (Arrow α × Option (Attempt α))) : List (Connector α) :=
  attempts.zipIdx.filterMap fun ((arrow, attempt), index) =>
    attempt.bind (·.connector? index arrow)

/-- **Route all connectors.** Those without a route are left out. -/
def routeAll (s : SolvedGraph α) (settings : LayoutSettings α) : List (Connector α) :=
  connectors (s.attempts settings)

end SolvedGraph

end Schematic
