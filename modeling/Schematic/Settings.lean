import Schematic.Color

/-!
# Settings

The distances, fonts and colours that a drawing is made with, and what they are
unless something else is asked for.

* `LayoutSettings`, `TextSettings`, `SvgSettings`: the settings of the three stages.
* `Settings`: all of them.
-/

namespace Schematic

variable {α : Type}

/-- How boxes are placed and connectors are routed. -/
structure LayoutSettings (α : Type) where
  /-- The least distance between a box and the edge of the canvas. -/
  outerMargin : α
  /-- The side of a routing cell. -/
  cellSide : α
  /-- How much further each connector stays away from boxes than the one before it. -/
  routingMarginStep : α
deriving DecidableEq, Repr

/-- The layout unless something else is asked for. -/
def LayoutSettings.standard [Scalar α] : LayoutSettings α :=
  ⟨((50 : Nat) : α), ((5 : Nat) : α), ((4 : Nat) : α)⟩

/-- The distance that the connector with a number, counted from zero, keeps from boxes. -/
def LayoutSettings.routingMargin [Scalar α] (settings : LayoutSettings α) (index : Nat) : α :=
  settings.routingMarginStep * ((index + 1 : Nat) : α)

/-- The font of labels and the size of its characters. -/
structure TextSettings (α : Type) where
  fontSize : α
  /-- The width of a character at the font size. -/
  charWidth : α
  /-- The height of a line at the font size. -/
  lineHeight : α
deriving DecidableEq, Repr

/-- The font unless something else is asked for. -/
def TextSettings.standard [Scalar α] : TextSettings α :=
  ⟨((16 : Nat) : α), ((10 : Nat) : α), ((20 : Nat) : α)⟩

/-- How a drawing is written as SVG. -/
structure SvgSettings (α : Type) where
  /-- The colour behind the whole drawing, if there is one. -/
  background : Option (Color α)
  /-- Whether every element gets a line of its own. -/
  prettyPrint : Bool
  fontFamily : String
deriving DecidableEq, Repr

/-- The SVG unless something else is asked for. -/
def SvgSettings.standard [Scalar α] : SvgSettings α := ⟨some .white, true, "sans-serif"⟩

/-- The settings of all stages. -/
structure Settings (α : Type) where
  layout : LayoutSettings α
  text : TextSettings α
  svg : SvgSettings α
deriving DecidableEq, Repr

/-- The settings unless something else is asked for. -/
def Settings.standard [Scalar α] : Settings α := ⟨.standard, .standard, .standard⟩

end Schematic
