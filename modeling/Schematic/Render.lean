import Schematic.Draw.Emit
import Schematic.Draw.Svg
import Schematic.Source.Parsing

/-!
# Rendering

A source is read, its diagram is built, placed and routed, and draw commands are
emitted. Any stage before the routing may refuse; then nothing is drawn.

* `Progress.ofSource`: how far a source gets.
* `Progress.result`: its drawing, or why there is none.
* `Drawing.svg`: the drawing as an SVG document.
-/

namespace Schematic

variable {α : Type}

/-- Why a source has no drawing. -/
inductive RenderError (α : Type) where
  | source (errors : List (SyntaxError α))
  | layout (error : LayoutError α)
deriving DecidableEq, Repr

/-- The error in words. -/
def RenderError.message [Scalar α] [Numeral α] : RenderError α → String
  | source errors => "parse errors: " ++ "; ".intercalate (errors.map SyntaxError.text)
  | layout error => "layout error: " ++ error.message

/-- A diagram drawn: what every stage made of its source. -/
structure Drawing (α : Type) where
  document : Document α
  diagram : Diagram α
  tableau : Tableau α
  attempts : List (Arrow α × Option (Attempt α))
  commands : List (DrawCommand α)

namespace Drawing

variable [Scalar α]

/-- The model with the values of its variables. -/
def solved (d : Drawing α) : SolvedGraph α :=
  ⟨d.diagram.graph, .ofTableau d.diagram.graph.table d.tableau⟩

/-- The connectors that are drawn. -/
def connectors (d : Drawing α) : List (Connector α) := SolvedGraph.connectors d.attempts

/-- **The drawing as an SVG document** of the size of the canvas. -/
def svg [Numeral α] (d : Drawing α) (settings : Settings α) : String :=
  svgOfCommands settings.svg settings.text d.solved.canvas.size d.commands

/-- The drawing of a diagram that is placed. -/
def ofTableau (document : Document α) (diagram : Diagram α) (tableau : Tableau α)
    (settings : Settings α) : Drawing α :=
  let solved : SolvedGraph α := ⟨diagram.graph, .ofTableau diagram.graph.table tableau⟩
  let attempts := solved.attempts settings.layout
  ⟨document, diagram, tableau, attempts,
    solved.emit (SolvedGraph.connectors attempts) settings.text settings.svg.background⟩

end Drawing

/-- How far a source gets: to an error of some stage or to a drawing. -/
inductive Progress (α : Type) where
  | unread (errors : List (SyntaxError α))
  | unbuilt (document : Document α) (error : LayoutError α)
  | unplaced (document : Document α) (diagram : Diagram α) (error : LayoutError α)
  | drawn (drawing : Drawing α)

namespace Progress

variable [Scalar α] [Numeral α]

/-- **How far a source gets** with the given settings. -/
def ofSource (source : String) (settings : Settings α) : Progress α :=
  match parse (α := α) source with
  | .error errors => .unread errors
  | .ok document =>
    match document.build with
    | .error error => .unbuilt document error
    | .ok diagram =>
      match diagram.tableau settings.layout fun b =>
          b.labelSize diagram.graph.styles settings.text with
      | .error error => .unplaced document diagram error
      | .ok tableau => .drawn (.ofTableau document diagram tableau settings)

/-- The drawing, or why there is none. -/
def result : Progress α → Except (RenderError α) (Drawing α)
  | unread errors => .error (.source errors)
  | unbuilt _ error | unplaced _ _ error => .error (.layout error)
  | drawn drawing => .ok drawing

end Progress

/-- **Draw a source** with the given settings. -/
def draw [Scalar α] [Numeral α] (source : String) (settings : Settings α) :
    Except (RenderError α) (Drawing α) :=
  (Progress.ofSource source settings).result

end Schematic
