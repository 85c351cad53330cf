/-!
# Spans

Places in a source text, counted in bytes of its UTF-8 form.

* `Span`: a range of bytes.
* `Located`: a value with the place it was read from.
-/

namespace Schematic

/-- The bytes from `start` up to `stop`, without the one at `stop`. -/
structure Span where
  start : Nat
  stop : Nat
deriving DecidableEq, Repr

/-- The range as it is shown in messages. -/
def Span.text (s : Span) : String := toString s.start ++ ".." ++ toString s.stop

/-- A value and the place in the source it was read from. -/
structure Located (β : Type) where
  value : β
  span : Span
deriving DecidableEq, Repr

/-- The number of bytes that characters take in UTF-8. -/
def byteLength : List Char → Nat
  | [] => 0
  | c :: cs => c.utf8Size + byteLength cs

theorem byteLength_append (cs ds : List Char) :
    byteLength (cs ++ ds) = byteLength cs + byteLength ds := by
  induction cs with
  | nil => simp [byteLength]
  | cons c cs ih => simp [byteLength, ih, Nat.add_assoc]

theorem byteLength_pos {cs : List Char} (h : cs ≠ []) : 0 < byteLength cs := by
  cases cs with
  | nil => exact absurd rfl h
  | cons c cs =>
    have := Char.utf8Size_pos c
    simp only [byteLength]
    omega

end Schematic
