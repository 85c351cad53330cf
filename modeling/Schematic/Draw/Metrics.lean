import Schematic.Draw.Command
import Schematic.Settings
import Schematic.Text.Lines

/-!
# Measuring text

A text takes the room of a grid of characters: all characters have one width and all
lines one height, and both grow with the font size.

* `TextSettings.measure`: the room that a text takes.
-/

namespace Schematic.TextSettings

variable {α : Type} [Scalar α]

/-- How much larger than the base font a font size is. -/
def scale (settings : TextSettings α) (size : α) : α :=
  if Scalar.zero < settings.fontSize then size / settings.fontSize else Scalar.one

/-- The height of a line. -/
def heightOfLine (settings : TextSettings α) (size : α) : α :=
  settings.lineHeight * settings.scale size

/-- The width of a line. -/
def widthOfLine (settings : TextSettings α) (line : String) (size : α) : α :=
  (line.length : α) * settings.charWidth * settings.scale size

/-- **The room that a text takes**: as wide as its widest line. -/
def measure (settings : TextSettings α) (t : StyledText α) : Size α :=
  let lines := Text.lines t.text
  ⟨(lines.map (settings.widthOfLine · t.size)).foldl Scalar.larger Scalar.zero,
    (lines.length : α) * settings.heightOfLine t.size⟩

end Schematic.TextSettings
