import Schematic.Draw.Listing
import Schematic.Render
import Schematic.Route.Picture

/-!
# The journal

What happens on the way from a source to a drawing is noted in a journal. An event has
a level of detail and the stage that it belongs to.

* `Event`: what can happen, with its text.
* `Progress.events`: the journal of a source, in order.
-/

namespace Schematic

variable {α : Type}

/-- How much detail an event has. -/
inductive EventLevel where
  | info
  | debug
  | trace
deriving DecidableEq, Repr

/-- The stages that events belong to. -/
inductive Stage where
  | pipeline
  | building
  | placing
  | routing
  | emitting
deriving DecidableEq, Repr

/-- What can happen. Connectors are told by the names of their boxes. -/
inductive Event (α : Type) where
  | parsed (declarations : Nat)
  | built (boxes arrows styles equations : Nat)
  | solving (constraints unknowns : Nat)
  | framed (canvas : Rect α)
  | grid (source target picture : String)
  | claimed (source target : String) (ends : Cell × Cell)
  | touching (source target : String)
  | skipped (source target : String)
  | emitted (commands boxes connectors : Nat)
deriving DecidableEq, Repr

namespace Event

/-- The level of an event. -/
def level : Event α → EventLevel
  | grid .. => .trace
  | skipped .. => .info
  | _ => .debug

/-- The stage of an event. -/
def stage : Event α → Stage
  | parsed .. | framed .. => .pipeline
  | built .. => .building
  | solving .. => .placing
  | grid .. | claimed .. | touching .. | skipped .. => .routing
  | emitted .. => .emitting

/-- A connector by the names of its boxes. -/
def between (source target : String) : String := source ++ " -> " ++ target

/-- The event in words. -/
def message [Numeral α] : Event α → String
  | parsed declarations => "parsed " ++ toString declarations ++ " declarations"
  | built boxes arrows styles equations =>
    "built diagram: " ++ toString boxes ++ " boxes, " ++ toString arrows ++ " arrows, " ++
      toString styles ++ " styles, " ++ toString equations ++ " equations"
  | solving constraints unknowns =>
    "solving " ++ toString constraints ++ " constraints over " ++ toString unknowns ++
      " variables"
  | framed canvas => "solved graph frame: " ++ canvas.listing
  | grid source target picture => "access grid for " ++ between source target ++ ":\n" ++ picture
  | claimed source target ends =>
    "connector " ++ between source target ++ ": connection points " ++ ends.1.listing ++
      " -> " ++ ends.2.listing
  | touching source target =>
    "connector " ++ between source target ++ ": boxes touch, nothing to draw"
  | skipped source target => "connector " ++ between source target ++ " skipped: no route"
  | emitted commands boxes connectors =>
    "emitted " ++ toString commands ++ " draw commands for " ++ toString boxes ++
      " boxes and " ++ toString connectors ++ " connectors"

end Event

/-- What happens while a connector is routed. -/
def Attempt.events (arrow : Arrow α) (a : Attempt α) : List (Event α) :=
  .grid arrow.source arrow.target a.grid.picture ::
    (a.ends.map (.claimed arrow.source arrow.target)).toList ++
    if a.touches then [.touching arrow.source arrow.target] else []

/-- What happens to a connector: the attempt to route it, and whether it is left out. -/
def arrowEvents [Scalar α] (arrow : Arrow α) (attempt : Option (Attempt α)) : List (Event α) :=
  (attempt.map (·.events arrow)).getD [] ++
    if (attempt.bind (·.connector? 0 arrow)).isSome then []
    else [.skipped arrow.source arrow.target]

/-- The event that a document was read. -/
def Document.event (d : Document α) : Event α := .parsed d.declarations.length

/-- The event that a diagram was built. -/
def Diagram.event (d : Diagram α) : Event α :=
  .built d.graph.boxes.size d.graph.arrows.length d.graph.styles.size d.equations.length

/-- What happens after the diagram was built, if it is drawn. -/
def Drawing.events [Scalar α] (d : Drawing α) : List (Event α) :=
  [.solving d.tableau.count d.diagram.graph.table.size, .framed d.solved.canvas] ++
    d.attempts.flatMap (fun (arrow, attempt) => arrowEvents arrow attempt) ++
    [.emitted d.commands.length d.diagram.graph.boxes.size d.connectors.length]

/-- **The journal of a source**, in order. -/
def Progress.events [Scalar α] : Progress α → List (Event α)
  | unread _ => []
  | unbuilt document _ => [document.event]
  | unplaced document diagram _ => [document.event, diagram.event]
  | drawn drawing => drawing.document.event :: drawing.diagram.event :: drawing.events

end Schematic
