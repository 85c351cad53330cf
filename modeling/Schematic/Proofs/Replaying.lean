import Mathlib
import Schematic.Draw.Shape

/-!
# What commands draw

What a command draws is told by the commands before it. A rectangle is filled with the colour that
was set last, and a path is painted with the parts that were added since the last one was painted,
unless there are none. A text is drawn line by line: the lines are what line feeds separate, with or
without a carriage return in front of them. Replaying the commands draws just this.

* `Text.IsLines`, `Text.isLines_iff`: the lines of a text.
* `fillAfter`, `collected`: the colour that is set after commands, and what is collected.
* `DrawnBy`: what one command draws after others.
* `Drawn`: what commands draw, one after the other.
* `drawn_iff`: replaying commands draws just this.
-/

namespace Schematic

/-! ### The lines of a text -/

namespace Text

/-- **The lines of a text.** A line ends with a line feed or with a carriage return and a line feed,
neither of which belongs to it. What follows the last line feed is a line unless it is empty. -/
inductive IsLines : List Char → List (List Char) → Prop
  | empty : IsLines [] []
  | last {line : List Char} (hline : line ≠ []) (hfeed : '\n' ∉ line) : IsLines line [line]
  | feed {line rest : List Char} {lines : List (List Char)} (hfeed : '\n' ∉ line)
    (hreturn : line.getLast? ≠ some '\r') (h : IsLines rest lines) :
    IsLines (line ++ '\n' :: rest) (line :: lines)
  | returned {line rest : List Char} {lines : List (List Char)} (hfeed : '\n' ∉ line)
    (h : IsLines rest lines) : IsLines (line ++ '\r' :: '\n' :: rest) (line :: lines)

variable {line rest : List Char}

theorem pieces_of_not_mem (h : '\n' ∉ line) : pieces line = [line] := by
  induction line with
  | nil => rfl
  | cons c line ih =>
    obtain ⟨hc, hline⟩ := List.ne_and_not_mem_of_not_mem_cons h
    rw [pieces, if_neg (Ne.symm hc), ih hline]

theorem pieces_append_feed (h : '\n' ∉ line) :
    pieces (line ++ '\n' :: rest) = line :: pieces rest := by
  induction line with
  | nil => rw [List.nil_append, pieces, if_pos rfl]
  | cons c line ih =>
    obtain ⟨hc, hline⟩ := List.ne_and_not_mem_of_not_mem_cons h
    rw [List.cons_append, pieces, if_neg (Ne.symm hc), ih hline]

theorem pieces_ne_nil (cs : List Char) : pieces cs ≠ [] := by
  cases cs with
  | nil => exact List.cons_ne_nil _ _
  | cons c cs =>
    unfold pieces
    split
    · exact List.cons_ne_nil _ _
    · split <;> exact List.cons_ne_nil _ _

/-- The first line and those after it. -/
theorem linesOfPieces_append_feed (h : '\n' ∉ line) :
    linesOfPieces (pieces (line ++ '\n' :: rest)) =
      dropReturn line :: linesOfPieces (pieces rest) := by
  obtain ⟨piece, more, hpieces⟩ := List.exists_cons_of_ne_nil (pieces_ne_nil rest)
  rw [pieces_append_feed h, hpieces, linesOfPieces]
  exact List.cons_ne_nil _ _

theorem IsLines.eq {cs : List Char} {lines : List (List Char)} (h : IsLines cs lines) :
    linesOfPieces (pieces cs) = lines := by
  induction h with
  | empty => rfl
  | @last line hline hfeed =>
    rw [pieces_of_not_mem hfeed, linesOfPieces, if_neg (by simpa using hline)]
  | @feed line rest lines hfeed hreturn _ ih =>
    rw [linesOfPieces_append_feed hfeed, ih, dropReturn, if_neg hreturn]
  | @returned line rest lines hfeed _ ih =>
    have hfeed' : '\n' ∉ line ++ ['\r'] := by simpa using hfeed
    rw [List.append_cons, linesOfPieces_append_feed hfeed', ih, dropReturn]
    simp

/-- Every text has lines. -/
theorem exists_isLines (cs : List Char) : ∃ lines, IsLines cs lines := by
  by_cases hfeed : '\n' ∈ cs
  · obtain ⟨line, rest, rfl, hline⟩ := List.eq_append_cons_of_mem hfeed
    obtain ⟨lines, hlines⟩ := exists_isLines rest
    by_cases hreturn : line.getLast? = some '\r'
    · obtain ⟨line, rfl⟩ := List.getLast?_eq_some_iff.1 hreturn
      rw [← List.append_cons]
      exact ⟨_, .returned (fun h => hline (List.mem_append_left _ h)) hlines⟩
    · exact ⟨_, .feed hline hreturn hlines⟩
  · by_cases hcs : cs = []
    · exact ⟨[], hcs ▸ .empty⟩
    · exact ⟨[cs], .last hcs hfeed⟩
termination_by cs.length
decreasing_by subst_vars; simp; omega

/-- **A text has just the lines that it is split into.** -/
theorem isLines_iff {cs : List Char} {lines : List (List Char)} :
    IsLines cs lines ↔ linesOfPieces (pieces cs) = lines := by
  constructor
  · exact IsLines.eq
  · rintro rfl
    obtain ⟨lines, h⟩ := exists_isLines cs
    exact h.eq ▸ h

theorem isLines_lines (s : String) : IsLines s.toList ((lines s).map String.toList) := by
  rw [isLines_iff, lines, List.map_map]
  simp [Function.comp_def]

/-- A text has no other lines. -/
theorem IsLines.unique {s : String} {lines lines' : List String}
    (h : IsLines s.toList (lines.map String.toList))
    (h' : IsLines s.toList (lines'.map String.toList)) : lines = lines' :=
  (List.map_injective_iff.2 fun _ _ => String.toList_inj.1) (h.eq.symm.trans h'.eq)

end Text

/-! ### Commands and what they draw -/

section Drawing

variable {α : Type}

/-- The colour that a command sets. -/
def DrawCommand.color? : DrawCommand α → Option (Color α)
  | .setFill color => some color
  | _ => none

/-- The part of a path that a command adds. -/
def DrawCommand.part? : DrawCommand α → Option (PathStep α)
  | .addRect r => some (.outline r)
  | .move p => some (.move p)
  | .addLine p => some (.line p)
  | _ => none

variable [Scalar α]

/-- How a command paints what is collected: with a colour for the area, and with a colour and a
width for the line. -/
def DrawCommand.paint? : DrawCommand α → Option (Color α × Option (Color α × α))
  | .strokePath style => some (.clear, some (style.stroke, style.lineWidth))
  | .fillPath style => some (style.fill, none)
  | .fillAndStrokePath style => some (style.fill, some (style.stroke, style.lineWidth))
  | _ => none

/-- **The colour to fill with** after commands: the one that was set last, and black before any. -/
def fillAfter (commands : List (DrawCommand α)) : Color α :=
  (commands.filterMap DrawCommand.color?).getLast?.getD .black

/-- **What is collected** after commands: the parts of a path that were added since the last path
was painted. -/
def collected (commands : List (DrawCommand α)) : List (PathStep α) :=
  (commands.rtakeWhile fun c => c.paint?.isNone).filterMap DrawCommand.part?

/-- Where the lines of a text are anchored from left to right: at the left edge, in the middle or at
the right edge of the room that the text takes. -/
def Alignment.anchor (left width : α) : Alignment → α
  | .left => left
  | .center => left + Scalar.half width
  | .right => left + width

/-- Lines of a text below each other. The line with a number is in the middle of the band with this
number, counted from the top. -/
def drawnLines (text : TextSettings α) (t : StyledText α) (corner : Point α)
    (lines : List String) : List (Shape α) :=
  lines.zipIdx.map fun (line, i) =>
    .line line ⟨t.alignment.anchor corner.x (text.measure t).width,
      corner.y + text.heightOfLine t.size * ((i : α) + Scalar.half Scalar.one)⟩ t

/-- **What one command draws** after others. -/
inductive DrawnBy (text : TextSettings α) (before : List (DrawCommand α)) :
    DrawCommand α → List (Shape α) → Prop
  | color (color : Color α) : DrawnBy text before (.setFill color) []
  /-- Rectangles in the colour that was set last. -/
  | rects (rects : List (Rect α)) :
    DrawnBy text before (.fill rects) (rects.map fun r => .rect r (fillAfter before))
  | part {c : DrawCommand α} {step : PathStep α} (h : c.part? = some step) :
    DrawnBy text before c []
  /-- A text by its lines. -/
  | lines {t : StyledText α} {corner : Point α} {lines : List String}
    (h : Text.IsLines t.text.toList (lines.map String.toList)) :
    DrawnBy text before (.drawText t corner) (drawnLines text t corner lines)
  /-- A path by all that is collected. -/
  | path {c : DrawCommand α} {fill : Color α} {stroke : Option (Color α × α)}
    (h : c.paint? = some (fill, stroke)) (hne : collected before ≠ []) :
    DrawnBy text before c [.path (collected before) fill stroke]
  /-- Nothing is painted if nothing is collected. -/
  | nothing {c : DrawCommand α} {fill : Color α} {stroke : Option (Color α × α)}
    (h : c.paint? = some (fill, stroke)) (hnil : collected before = []) : DrawnBy text before c []

/-- **What commands draw**, one after the other. -/
inductive Drawn (text : TextSettings α) : List (DrawCommand α) → List (Shape α) → Prop
  | nil : Drawn text [] []
  | snoc {commands : List (DrawCommand α)} {c : DrawCommand α} {drawn items : List (Shape α)}
    (h : Drawn text commands drawn) (hc : DrawnBy text commands c items) :
    Drawn text (commands ++ [c]) (drawn ++ items)

/-! ### Replaying -/

variable {text : TextSettings α} {commands : List (DrawCommand α)} {c : DrawCommand α}
  {drawn items items' : List (Shape α)}

theorem replay_concat (text : TextSettings α) (commands : List (DrawCommand α))
    (c : DrawCommand α) :
    replay text (commands ++ [c]) = (replay text commands).apply text c := by
  rw [replay, List.foldl_append]
  rfl

theorem fillAfter_concat : fillAfter (commands ++ [c]) = c.color?.getD (fillAfter commands) := by
  rw [fillAfter, List.filterMap_append]
  cases hc : c.color? <;> simp [hc, fillAfter]

theorem collected_concat : collected (commands ++ [c]) =
    if c.paint?.isSome then [] else collected commands ++ c.part?.toList := by
  rw [collected, List.rtakeWhile_concat]
  cases hc : c.paint? with
  | none => cases hp : c.part? <;> simp [hp, collected]
  | some paint => simp

/-- What adds to a path does not paint it. -/
theorem DrawCommand.paint?_of_part? {step : PathStep α} (h : c.part? = some step) :
    c.paint? = none := by
  cases c with
  | addRect | move | addLine | setFill | fill | drawText => rfl
  | strokePath | fillPath | fillAndStrokePath => cases h

/-- The colour and the path of a drawing on the way. -/
theorem replay_state (text : TextSettings α) (commands : List (DrawCommand α)) :
    (replay text commands).fill = fillAfter commands ∧
      (replay text commands).path = collected commands := by
  induction commands using List.reverseRecOn with
  | nil => exact ⟨rfl, rfl⟩
  | append_singleton commands c ih =>
    rw [replay_concat, fillAfter_concat, collected_concat, ← ih.1, ← ih.2]
    cases c with
    | strokePath | fillPath | fillAndStrokePath =>
      simp only [Easel.apply, Easel.paint]
      split <;> exact ⟨rfl, rfl⟩
    | setFill | fill | drawText => exact ⟨rfl, (List.append_nil _).symm⟩
    | addRect | move | addLine => exact ⟨rfl, rfl⟩

theorem textLines_eq (text : TextSettings α) (t : StyledText α) (corner : Point α) :
    Easel.textLines text t corner = drawnLines text t corner (Text.lines t.text) := by
  unfold Easel.textLines drawnLines
  cases t.alignment <;> rfl

/-- Replaying one command more draws what it draws after the others. -/
theorem exists_drawnBy (text : TextSettings α) (commands : List (DrawCommand α))
    (c : DrawCommand α) : ∃ items, DrawnBy text commands c items ∧
      shapes text (commands ++ [c]) = shapes text commands ++ items := by
  obtain ⟨hfill, hpath⟩ := replay_state text commands
  have hpaint : ∀ {fill stroke}, c.paint? = some (fill, stroke) →
      (replay text commands).apply text c = (replay text commands).paint fill stroke →
      ∃ items, DrawnBy text commands c items ∧
        shapes text (commands ++ [c]) = shapes text commands ++ items := by
    intro fill stroke hc happly
    by_cases hnil : collected commands = []
    · refine ⟨[], .nothing hc hnil, ?_⟩
      rw [shapes, replay_concat, happly, Easel.paint, hpath, hnil, List.append_nil]
      rfl
    · refine ⟨_, .path hc hnil, ?_⟩
      rw [shapes, replay_concat, happly, Easel.paint, hpath, if_neg (by simpa using hnil)]
      rfl
  cases c with
  | setFill color => exact ⟨[], .color color, by rw [shapes, replay_concat]; simp; rfl⟩
  | fill rects => exact ⟨_, .rects rects, by rw [shapes, replay_concat, ← hfill]; rfl⟩
  | addRect | move | addLine =>
    exact ⟨[], .part rfl, by rw [shapes, replay_concat, List.append_nil]; rfl⟩
  | drawText t corner =>
    refine ⟨_, .lines (Text.isLines_lines t.text), ?_⟩
    rw [shapes, replay_concat, ← textLines_eq]
    rfl
  | strokePath | fillPath | fillAndStrokePath => exact hpaint rfl rfl

theorem DrawnBy.unique (h : DrawnBy text commands c items) (h' : DrawnBy text commands c items') :
    items = items' := by
  have hdiffer : ∀ {fill fill' : Color α} {stroke stroke' : Option (Color α × α)},
      c.paint? = some (fill, stroke) → c.paint? = some (fill', stroke') →
        fill = fill' ∧ stroke = stroke' :=
    fun h h' => Prod.ext_iff.1 (Option.some.inj (h.symm.trans h'))
  cases h with
  | color color =>
    cases h' with
    | color | part | nothing => rfl
    | path h => cases h
  | rects rects =>
    cases h' with
    | rects => rfl
    | part h | path h | nothing h => cases h
  | part h =>
    cases h' with
    | color | part | nothing => rfl
    | rects | lines => cases h
    | path h' => simp [DrawCommand.paint?_of_part? h] at h'
  | lines h =>
    cases h' with
    | lines h' => rw [h.unique h']
    | part h | path h | nothing h => cases h
  | path h hne =>
    cases h' with
    | color | rects | lines => cases h
    | part h' => simp [DrawCommand.paint?_of_part? h'] at h
    | path h' =>
      obtain ⟨rfl, rfl⟩ := hdiffer h h'
      rfl
    | nothing _ hnil => exact absurd hnil hne
  | nothing h hnil =>
    cases h' with
    | color | part | nothing => rfl
    | rects | lines => cases h
    | path _ hne => exact absurd hnil hne

/-- A path that is drawn has parts. -/
theorem Drawn.steps_ne_nil {steps : List (PathStep α)} {fill : Color α}
    {stroke : Option (Color α × α)} (h : Drawn text commands drawn)
    (hpath : Shape.path steps fill stroke ∈ drawn) : steps ≠ [] := by
  induction h with
  | nil => cases hpath
  | snoc _ hc ih =>
    rcases List.mem_append.1 hpath with hbefore | hpath
    · exact ih hbefore
    · cases hc with
      | color | part | nothing => cases hpath
      | rects | lines => simp [drawnLines] at hpath
      | path _ hne =>
        obtain ⟨rfl, -, -⟩ := Shape.path.inj (List.mem_singleton.1 hpath)
        exact hne

/-- **Replaying commands draws what they draw**, and nothing else. -/
theorem drawn_iff : Drawn text commands drawn ↔ shapes text commands = drawn := by
  constructor
  · intro h
    induction h with
    | nil => rfl
    | @snoc commands c drawn items _ hc ih =>
      obtain ⟨items', hc', hshapes⟩ := exists_drawnBy text commands c
      rw [hshapes, ih, hc'.unique hc]
  · rintro rfl
    induction commands using List.reverseRecOn with
    | nil => exact .nil
    | append_singleton commands c ih =>
      obtain ⟨items, hc, hshapes⟩ := exists_drawnBy text commands c
      rw [hshapes]
      exact ih.snoc hc

end Drawing

end Schematic
