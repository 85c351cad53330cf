import Schematic.Placement.Requirement
import Schematic.Placement.Simplex

/-!
# Solved diagrams

A solution gives every variable of a diagram a value. With it, boxes and canvas have
frames.

* `Solver`: what placement asks of a solver; `Solver.simplex`: the one with a tableau.
* `Diagram.solved`, `Diagram.solveWith`: the solution of a diagram by any solver.
* `Diagram.tableau`, `Diagram.solve`: its solution by a tableau.
* `SolvedGraph.frame?`, `SolvedGraph.canvas`: the frames of boxes and canvas.
-/

namespace Schematic

variable {α : Type}

/-- A value for every variable of a table. -/
structure Solution (α : Type) where
  values : List α
deriving DecidableEq, Repr

namespace Solution

/-- The value of a variable, zero for unknown ones. -/
def value [Scalar α] (s : Solution α) (v : Variable) : α := s.values[v]?.getD Scalar.zero

/-- The values of the variables of a table. -/
def ofValues (table : VariableTable) (value : Variable → α) : Solution α :=
  ⟨(List.range table.size).map value⟩

/-- The values that a tableau gives to the variables of a table. -/
def ofTableau [Scalar α] (table : VariableTable) (t : Tableau α) : Solution α :=
  .ofValues table t.value

/-- The tableau with one more constraint. A contradiction is told in the names of the
variables. -/
def require [Scalar α] (table : VariableTable) (t : Tableau α) (c : Constraint α Variable) :
    Except (SolverError α) (Tableau α) :=
  (t.add c).mapError fun
    | .contradiction => .unsatisfiable (c.mapKeys table.name)
    | .unbounded => .unbounded (c.mapKeys table.name)

end Solution

/-- **A solver**: its state before any constraint, the step with one more constraint, which it may
refuse, and the values that it gives to variables in the end. -/
structure Solver (α σ : Type) where
  start : σ
  step : σ → Constraint α Variable → Except (SolverError α) σ
  value : σ → Variable → α

/-- The solver with a tableau. -/
def Solver.simplex [Scalar α] (table : VariableTable) : Solver α (Tableau α) :=
  ⟨.empty, Solution.require table, Tableau.value⟩

namespace Diagram

variable [Scalar α] {σ : Type}

/-- The state of a solver with all constraints of a diagram, or the first error among them. -/
def solved (d : Diagram α) (solver : Solver α σ) (settings : LayoutSettings α)
    (measure : DiagramBox → Size α) : Except (LayoutError α) σ :=
  (d.constraints settings measure).foldlM (fun s c => do
    (solver.step s (← c)).mapError .solver) solver.start

/-- **The solution of a diagram** by a solver, given the sizes of its labels. -/
def solveWith (d : Diagram α) (solver : Solver α σ) (settings : LayoutSettings α)
    (measure : DiagramBox → Size α) : Except (LayoutError α) (Solution α) := do
  return .ofValues d.graph.table (solver.value (← d.solved solver settings measure))

/-- The tableau of all constraints of a diagram, or the first error among them. -/
def tableau (d : Diagram α) (settings : LayoutSettings α) (measure : DiagramBox → Size α) :
    Except (LayoutError α) (Tableau α) :=
  d.solved (.simplex d.graph.table) settings measure

/-- The solution of a diagram by a tableau. -/
def solve (d : Diagram α) (settings : LayoutSettings α) (measure : DiagramBox → Size α) :
    Except (LayoutError α) (Solution α) :=
  d.solveWith (.simplex d.graph.table) settings measure

end Diagram

/-- The rectangle between the edges that a solution gives to anchors. -/
def Anchors.frame [Scalar α] (anchors : Anchors) (s : Solution α) : Rect α :=
  let left := s.value anchors.left
  let top := s.value anchors.top
  .of left top (s.value anchors.right - left) (s.value anchors.bottom - top)

/-- A model whose variables have values. -/
structure SolvedGraph (α : Type) where
  graph : Graph α
  solution : Solution α

namespace SolvedGraph

variable [Scalar α]

/-- The frame of a box. -/
def frame? (s : SolvedGraph α) (id : String) : Option (Rect α) :=
  (s.graph.box? id).map fun b => b.anchors.frame s.solution

/-- The frame of the canvas. -/
def canvas (s : SolvedGraph α) : Rect α := s.graph.anchors.frame s.solution

/-- The boxes in the order of their names, each with its frame. -/
def boxFrames (s : SolvedGraph α) : List (DiagramBox × Rect α) :=
  s.graph.boxList.map fun b => (b, b.anchors.frame s.solution)

end SolvedGraph

end Schematic
