import Schematic.Draw.Emit
import Schematic.Proofs.Attempts
import Schematic.Proofs.Elements

/-!
# What is drawn

The commands for a diagram collect a path and paint it, again and again, so each thing drawn is an
element of its own only if every path is painted before the next one begins. The commands for a
box, a connector or an arrowhead find nothing collected and leave nothing collected. In between
they draw their own shapes, and so do all of them one after the other.

* `DiagramBox.IsDrawn`: what a box is drawn as, by the lines of its label.
* `SolvedGraph.IsPicture`: the shapes of a diagram, one after the other.
* `Draws`: commands that begin and end with nothing collected, and the shapes they draw.
* `Draws.append`, `Draws.flatMap`: one after the other they draw all shapes in order.
* `DiagramBox.exists_draws_commands`, `Connector.draws_commands`: a box, a connector.
* `SolvedGraph.exists_draws_emit`: a diagram.
* `SolvedGraph.svg_picture`: the document that is written of it.
-/

namespace Schematic

variable {α : Type}

/-! ### The picture of a diagram -/

/-- The path through points. -/
def polyline : List (Point α) → List (PathStep α)
  | [] => []
  | first :: rest => .move first :: rest.map .line

section Picture

variable [Scalar α]

/-- The outline of a frame, around a background if there is one. -/
def outlineShape (frame : Rect α) (background : Option (Color α)) : Shape α :=
  .path [.outline frame] (background.getD .clear) (some (.black, Scalar.one))

/-- The lines of a label in a frame. They stand below each other, and the room that they take has
its middle in the middle of the frame. -/
def labelShapes (label : StyledText α) (lines : List String) (frame : Rect α)
    (text : TextSettings α) : List (Shape α) :=
  let room := text.measure label
  drawnLines text label
    ⟨frame.center.x - Scalar.half room.width, frame.center.y - Scalar.half room.height⟩ lines

/-- **What a box is drawn as** in a frame: its outline around the background of its style, and the
lines of its label, centred, in the base font and in the text colour of its style. -/
def DiagramBox.IsDrawn (b : DiagramBox) (frame : Rect α) (styles : StyleSheet α)
    (text : TextSettings α) (drawn : List (Shape α)) : Prop :=
  let style := styles.resolved b.style
  ∃ lines : List String, Text.IsLines b.label.toList (lines.map String.toList) ∧
    drawn = outlineShape frame style.background ::
      labelShapes ⟨b.label, text.fontSize, style.text.getD .black, .center⟩ lines frame text

/-- An arrowhead, filled. -/
def Arrowhead.shape (head : Arrowhead α) : Shape α :=
  .path (polyline [head.tip, head.left, head.right, head.tip]) .black none

/-- The line of a connector. -/
def Connector.shape (c : Connector α) : Shape α :=
  .path (polyline c.points) .clear (some (.black, c.lineWidth))

/-- **The picture of a diagram** from back to front: the background, each box by its outline and
the lines of its label, and each connector by its line and its arrowheads. -/
def SolvedGraph.IsPicture (s : SolvedGraph α) (connectors : List (Connector α))
    (text : TextSettings α) (background : Option (Color α)) (drawn : List (Shape α)) : Prop :=
  ∃ boxes : List (List (Shape α)),
    List.Forall₂ (fun (entry : String × DiagramBox) =>
      entry.2.IsDrawn (entry.2.anchors.frame s.solution) s.graph.styles text)
      s.graph.boxes.toList boxes ∧
    drawn = background.toList.map (.rect s.canvas) ++ boxes.flatten ++
      connectors.flatMap fun c => c.shape :: c.arrowheads.map Arrowhead.shape

end Picture

/-! ### Commands and the shapes they draw -/

variable {fill : Color α} {stroke : Option (Color α × α)}

/-- What is collected is painted as one shape. -/
theorem Easel.paint_of_ne_nil {e : Easel α} (h : e.path ≠ []) :
    e.paint fill stroke = ⟨e.fill, [], e.shapes ++ [.path e.path fill stroke]⟩ := by
  rw [paint, if_neg (by simpa using h)]
  rfl

variable [Scalar α] {text : TextSettings α}

/-- **Commands draw shapes**: where nothing is collected they add just these shapes, and leave
nothing collected. -/
def Draws (text : TextSettings α) (commands : List (DrawCommand α)) (drawn : List (Shape α)) :
    Prop :=
  ∀ e : Easel α, e.path = [] →
    (commands.foldl (Easel.apply text) e).path = [] ∧
      (commands.foldl (Easel.apply text) e).shapes = e.shapes ++ drawn

namespace Draws

variable {commands commands' : List (DrawCommand α)} {drawn drawn' : List (Shape α)}

theorem nil : Draws text [] [] := fun e he => ⟨he, (List.append_nil e.shapes).symm⟩

/-- Nothing is collected in between, so what comes later draws its own shapes. -/
theorem append (h : Draws text commands drawn) (h' : Draws text commands' drawn') :
    Draws text (commands ++ commands') (drawn ++ drawn') := by
  intro e he
  obtain ⟨hpath, hshapes⟩ := h e he
  obtain ⟨hpath', hshapes'⟩ := h' _ hpath
  rw [List.foldl_append]
  exact ⟨hpath', by rw [hshapes', hshapes, List.append_assoc]⟩

/-- **Things drawn one after the other.** -/
theorem flatMap {β : Type} {items : List β} {f : β → List (DrawCommand α)}
    {g : β → List (Shape α)} (h : ∀ b ∈ items, Draws text (f b) (g b)) :
    Draws text (items.flatMap f) (items.flatMap g) := by
  induction items with
  | nil => exact nil
  | cons b rest ih =>
    rw [List.flatMap_cons, List.flatMap_cons]
    exact (h b List.mem_cons_self).append (ih fun b' hb' => h b' (List.mem_cons_of_mem _ hb'))

end Draws

theorem Easel.foldl_addLine (e : Easel α) (points : List (Point α)) :
    (points.map .addLine).foldl (Easel.apply text) e =
      { e with path := e.path ++ points.map .line } := by
  induction points generalizing e with
  | nil => simp
  | cons p rest ih =>
    rw [List.map_cons, List.foldl_cons, ih]
    simp [apply, step]

/-- A path that is painted at its end. -/
theorem draws_polyline {painting : DrawCommand α}
    (h : ∀ e : Easel α, e.apply text painting = e.paint fill stroke) (first : Point α)
    (rest : List (Point α)) :
    Draws text (.move first :: rest.map .addLine ++ [painting])
      [.path (polyline (first :: rest)) fill stroke] := by
  intro e he
  simp only [List.foldl_append, List.foldl_cons, List.foldl_nil, Easel.foldl_addLine, h]
  rw [Easel.paint_of_ne_nil (by simp [Easel.apply, Easel.step])]
  simp [Easel.apply, Easel.step, he, polyline]

theorem draws_background (canvas : Rect α) (background : Option (Color α)) :
    Draws text (backgroundCommands canvas background) (background.toList.map (.rect canvas)) := by
  cases background with
  | none => exact .nil
  | some color => exact fun e he => ⟨he, rfl⟩

theorem draws_outline (frame : Rect α) (background : Option (Color α)) :
    Draws text [.addRect frame, outlineCommand background] [outlineShape frame background] := by
  intro e he
  cases background <;>
    simp [outlineCommand, outlineShape, Easel.apply, Easel.step, Easel.paint, Easel.draw, he,
      PathStyle.line]

theorem draws_text (t : StyledText α) (point : Point α) :
    Draws text [.drawText t point] (drawnLines text t point (Text.lines t.text)) := by
  rw [← textLines_eq]
  exact fun _ he => ⟨he, rfl⟩

/-- **A box** is its outline and the lines of its label. -/
theorem DiagramBox.exists_draws_commands (b : DiagramBox) (frame : Rect α) (styles : StyleSheet α)
    (text : TextSettings α) : ∃ drawn, b.IsDrawn frame styles text drawn ∧
      Draws text (b.commands frame styles text) drawn := by
  refine ⟨_, ⟨Text.lines b.label, Text.isLines_lines b.label, rfl⟩, ?_⟩
  exact (draws_outline frame _).append (draws_text _ _)

theorem Arrowhead.draws_commands (head : Arrowhead α) : Draws text head.commands [head.shape] :=
  draws_polyline (fun _ => rfl) head.tip [head.left, head.right, head.tip]

/-- **A connector** is its line and its arrowheads. -/
theorem Connector.draws_commands {c : Connector α} (h : c.points ≠ []) :
    Draws text c.commands (c.shape :: c.arrowheads.map Arrowhead.shape) := by
  obtain ⟨first, rest, hpoints⟩ := List.exists_cons_of_ne_nil h
  have hline : Draws text
      (.move first :: rest.map .addLine ++ [.strokePath (.line c.lineWidth .black)]) [c.shape] := by
    rw [Connector.shape, hpoints]
    exact draws_polyline (fun _ => rfl) first rest
  have hheads : Draws text (c.arrowheads.flatMap Arrowhead.commands)
      (c.arrowheads.map Arrowhead.shape) := by
    rw [List.map_eq_flatMap]
    exact .flatMap fun head _ => head.draws_commands
  rw [commands, hpoints]
  simpa using hline.append hheads

namespace SolvedGraph

variable {s : SolvedGraph α}

/-- **A diagram** is its picture. -/
theorem exists_draws_emit {connectors : List (Connector α)} (h : ∀ c ∈ connectors, c.points ≠ [])
    (text : TextSettings α) (background : Option (Color α)) : ∃ drawn,
      s.IsPicture connectors text background drawn ∧
      Draws text (s.emit connectors text background) drawn := by
  choose drawn hdrawn hdraws using fun entry : String × DiagramBox =>
    entry.2.exists_draws_commands (entry.2.anchors.frame s.solution) s.graph.styles text
  refine ⟨_, ⟨s.graph.boxes.toList.map drawn, ?_, rfl⟩, ?_⟩
  · exact List.forall₂_map_right_iff.2 (List.forall₂_same.2 fun entry _ => hdrawn entry)
  · rw [emit, boxFrames, Graph.boxList, List.map_map, List.flatMap_map, ← List.flatMap_def]
    refine ((draws_background s.canvas background).append ?_).append ?_
    · exact .flatMap fun entry _ => hdraws entry
    · exact .flatMap fun c hc => Connector.draws_commands (h c hc)

/-- A connector that is drawn has points. -/
theorem points_ne_nil {settings : LayoutSettings α} {c : Connector α}
    (h : c ∈ s.routeAll settings) : c.points ≠ [] := by
  obtain ⟨arrow, a, -, ha⟩ := mem_connectors_iff.1 h
  obtain ⟨_, points, -, -, hlen, hc⟩ := connector?_eq_some_iff.1 ha
  obtain rfl : points = c.points := by rw [← hc]
  exact List.ne_nil_of_length_pos (by omega)

/-- **Nothing is lost or merged.** The document of a diagram has the elements of its picture, one
for each shape: the background, then the boxes in the order of their names, each by its outline and
the lines of its label, then the connectors in the order of their declarations, each by its line and
its arrowheads. Nothing is left collected at the end. -/
theorem svg_picture (s : SolvedGraph Float) (settings : Settings Float) (size : Size Float)
    (background : Option (Color Float)) :
    let connectors := s.routeAll settings.layout
    let commands := s.emit connectors settings.text background
    ∃ drawn elements, s.IsPicture connectors settings.text background drawn ∧
      List.Forall₂ (Shape.Tagged settings.svg.fontFamily) drawn elements ∧
      Markup.read (svgOfCommands settings.svg settings.text size commands).toList =
        some (documentMarks settings.svg size elements) ∧
      (replay settings.text commands).path = [] ∧
      s.graph.boxes.toList.Pairwise (·.1 < ·.1) ∧ connectors.Pairwise (·.arrow < ·.arrow) := by
  intro connectors commands
  have hpoints : ∀ c ∈ connectors, c.points ≠ [] := fun c hc => points_ne_nil hc
  obtain ⟨drawn, hpicture, hdraws⟩ := s.exists_draws_emit hpoints settings.text background
  obtain ⟨hpath, hshapes⟩ := hdraws .empty rfl
  have hdrawn : Drawn settings.text commands drawn := drawn_iff.2 hshapes
  obtain ⟨elements, htagged, hread⟩ := exists_read_of_drawn hdrawn settings.svg size
  refine ⟨drawn, elements, hpicture, htagged, hread, hpath, ?_, ?_⟩
  · exact Std.TreeMap.ordered_keys_toList.imp compare_lt_iff_lt.1
  · exact List.pairwise_map.1 (connectors_pairwise _)

end SolvedGraph

end Schematic
