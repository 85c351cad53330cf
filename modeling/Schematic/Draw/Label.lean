import Schematic.Draw.Metrics
import Schematic.Model.Graph

/-!
# Labels

The label of a box is written in the base font, centred, and in the text colour of the
box's style.

* `DiagramBox.labelText`: the label as a text.
-/

namespace Schematic

variable {α : Type} [Scalar α]

/-- The label of a box as a text; black if its style has no text colour. -/
def DiagramBox.labelText (b : DiagramBox) (styles : StyleSheet α) (settings : TextSettings α) :
    StyledText α :=
  ⟨b.label, settings.fontSize, (styles.resolved b.style).text.getD .black, .center⟩

/-- The room that the label of a box takes. -/
def DiagramBox.labelSize (b : DiagramBox) (styles : StyleSheet α) (settings : TextSettings α) :
    Size α :=
  settings.measure (b.labelText styles settings)

end Schematic
