import Mathlib.Computability.StateTransition
import Schematic.Model.Style

/-!
# Lookups by frames

A lookup that goes through the styles with a stack of frames of its own. A frame holds a style
and the place in the list of what it inherits; the value of a style that is finished goes to the
frame below it, which keeps the last value it was given.

* `Lookup.round`: one round of such a lookup.
* `StyleSheet.lookup`: the lookup from a style, round after round as long as there are frames.
-/

namespace Schematic

open StateTransition

variable {α : Type}

/-- A style that is looked through: how many of the styles it inherits from were looked at, and
the value that was found so far. -/
structure Frame (α : Type) where
  style : BoxStyle α
  next : Nat
  resolved : Option (Color α)

namespace Frame

/-- A style of which nothing was looked at. -/
def ofStyle (style : BoxStyle α) : Frame α := ⟨style, 0, none⟩

/-- The frame with the value of a style that was finished, if that has one. -/
def receive (frame : Frame α) : Option (Option (Color α)) → Frame α
  | some (some value) => { frame with resolved := some value }
  | _ => frame

end Frame

/-- **A lookup between two rounds**: the styles on the way to the topmost frame, the frames from
the topmost one down, and the value of a style that was finished in the last round. -/
structure Lookup (α : Type) where
  onPath : List String
  stack : List (Frame α)
  finished : Option (Option (Color α))

namespace Lookup

/-- The lookup from a style without a value of its own. -/
def start (id : String) (style : BoxStyle α) : Lookup α := ⟨[id], [.ofStyle style], none⟩

/-- **One round of a lookup.** The topmost frame takes the value of what was finished. Then it is
finished itself, or its next style is passed over, gives its own value or gets a frame. -/
def round (sheet : StyleSheet α) (property : StyleProperty) (lookup : Lookup α) :
    Option (Lookup α) :=
  match lookup.stack with
  | [] => none
  | top :: below =>
    let frame := top.receive lookup.finished
    match frame.style.inherits[frame.next]? with
    | none => some ⟨lookup.onPath.dropLast, below, some frame.resolved⟩
    | some parent =>
      let frame := { frame with next := frame.next + 1 }
      if parent ∈ lookup.onPath then some ⟨lookup.onPath, frame :: below, none⟩
      else match sheet.get? parent with
        | none => some ⟨lookup.onPath, frame :: below, none⟩
        | some style =>
          match style.own property with
          | some value => some ⟨lookup.onPath, frame :: below, some (some value)⟩
          | none => some ⟨lookup.onPath ++ [parent], .ofStyle style :: frame :: below, none⟩

end Lookup

/-- **The value of a property in a style**, looked up round after round. -/
def StyleSheet.lookup (sheet : StyleSheet α) (property : StyleProperty) :
    String →. Option (Color α) := fun id =>
  match sheet.get? id with
  | none => Part.some none
  | some root =>
    match root.own property with
    | some value => Part.some (some value)
    | none =>
      (eval (Lookup.round sheet property) (.start id root)).map fun last => last.finished.join

end Schematic
