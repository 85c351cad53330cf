import Std.Data.TreeMap
import Schematic.Color

/-!
# Box styles

A style may set a background and a text colour, and inherits from other styles what
it does not set. Of the styles it inherits from, the last one that has a value gives
it. A lookup never enters a style twice on one path, so cycles end.

* `StyleSheet.search`: the agenda of a lookup, taken from the front.
* `StyleSheet.resolve`: the value of a property in a style.
-/

namespace Schematic

/-- A property of a style. -/
inductive StyleProperty where
  | background
  | text
deriving DecidableEq, Repr

/-- A style by its name, the styles it inherits from and what it sets itself. -/
structure BoxStyle (α : Type) where
  id : String
  inherits : List String
  background : Option (Color α)
  text : Option (Color α)
deriving DecidableEq, Repr

namespace BoxStyle

variable {α : Type}

/-- A style that sets nothing. -/
def plain (id : String) : BoxStyle α := ⟨id, [], none, none⟩

/-- What a style sets itself. -/
def own (style : BoxStyle α) : StyleProperty → Option (Color α)
  | .background => style.background
  | .text => style.text

end BoxStyle

/-- The styles of a diagram by their names. -/
structure StyleSheet (α : Type) where
  styles : Std.TreeMap String (BoxStyle α)

/-- A style that a lookup has still to enter: its name, the styles on the way to it,
and how many styles may follow it. -/
structure Visit where
  path : List String
  id : String
  budget : Nat
deriving DecidableEq, Repr

namespace StyleSheet

variable {α : Type}

/-- A sheet without styles. -/
def empty : StyleSheet α := ⟨∅⟩

/-- The style of a name. -/
def get? (sheet : StyleSheet α) (id : String) : Option (BoxStyle α) := sheet.styles[id]?

/-- Whether there is a style of a name. -/
def contains (sheet : StyleSheet α) (id : String) : Bool := (sheet.get? id).isSome

/-- The sheet with a style, in place of the one with its name. -/
def insert (sheet : StyleSheet α) (style : BoxStyle α) : StyleSheet α :=
  ⟨sheet.styles.insert style.id style⟩

/-- The number of styles. -/
def size (sheet : StyleSheet α) : Nat := sheet.styles.size

/-- The styles in the order of their names. -/
def toList (sheet : StyleSheet α) : List (BoxStyle α) := sheet.styles.toList.map (·.2)

/-- The greatest number of styles that one style inherits from. -/
def breadth (sheet : StyleSheet α) : Nat :=
  ((sheet.styles.toList.map (·.2.inherits.length)).max?).getD 0

theorem inherits_length_le_breadth {sheet : StyleSheet α} {id : String} {style : BoxStyle α}
    (h : sheet.get? id = some style) : style.inherits.length ≤ sheet.breadth := by
  have hm : (id, style) ∈ sheet.styles.toList := Std.TreeMap.mem_toList_iff_getElem?_eq_some.2 h
  have hl : style.inherits.length ∈ sheet.styles.toList.map (·.2.inherits.length) :=
    List.mem_map.2 ⟨_, hm, rfl⟩
  unfold breadth
  cases hx : (sheet.styles.toList.map (·.2.inherits.length)).max? with
  | none =>
    rw [List.max?_eq_none_iff.1 hx] at hl
    exact absurd hl List.not_mem_nil
  | some m => exact (List.max?_eq_some_iff.1 hx).2 _ hl

/-- The most lookups that visits can lead to. -/
def cost (sheet : StyleSheet α) : (agenda : List Visit) → Nat
  | [] => 0
  | v :: rest => Nat.pow (sheet.breadth + 1) v.budget + cost sheet rest

/-- The visits to the styles that a style inherits from, the last one first. -/
def parents (style : BoxStyle α) (path : List String) (budget : Nat) : List Visit :=
  style.inherits.reverse.map fun parent => ⟨path, parent, budget⟩

theorem cost_parents (sheet : StyleSheet α) (style : BoxStyle α) (path : List String)
    (budget : Nat) :
    sheet.cost (parents style path budget) =
      style.inherits.length * Nat.pow (sheet.breadth + 1) budget := by
  unfold parents
  rw [← List.length_reverse]
  induction style.inherits.reverse with
  | nil => simp [cost]
  | cons p ps ih =>
    simp only [List.map_cons, List.length_cons, cost, ih, Nat.succ_mul]
    exact Nat.add_comm _ _

theorem cost_append (sheet : StyleSheet α) (agenda rest : List Visit) :
    sheet.cost (agenda ++ rest) = sheet.cost agenda + sheet.cost rest := by
  induction agenda with
  | nil => simp [cost]
  | cons v agenda ih => simp [cost, ih, Nat.add_assoc]

theorem cost_cons (sheet : StyleSheet α) (v : Visit) (rest : List Visit) :
    sheet.cost rest < sheet.cost (v :: rest) :=
  Nat.lt_add_of_pos_left (Nat.pow_pos (Nat.succ_pos sheet.breadth))

theorem cost_parents_append {sheet : StyleSheet α} {id : String} {style : BoxStyle α}
    (h : sheet.get? id = some style) (v : Visit) (path : List String) (budget : Nat)
    (hb : v.budget = budget + 1) (rest : List Visit) :
    sheet.cost (parents style path budget ++ rest) < sheet.cost (v :: rest) := by
  have hp : 0 < Nat.pow (sheet.breadth + 1) budget := Nat.pow_pos (Nat.succ_pos sheet.breadth)
  have hl := Nat.mul_le_mul_right (Nat.pow (sheet.breadth + 1) budget) (inherits_length_le_breadth h)
  have hs : Nat.pow (sheet.breadth + 1) (budget + 1) =
      sheet.breadth * Nat.pow (sheet.breadth + 1) budget + Nat.pow (sheet.breadth + 1) budget := by
    rw [Nat.mul_comm]
    rfl
  rw [cost_append, cost_parents, cost, hb, hs]
  omega

/-- The value that the first fruitful visit of an agenda finds. A style without a value
of its own is replaced by the styles it inherits from. -/
def search (sheet : StyleSheet α) (property : StyleProperty) :
    List Visit → Option (Color α)
  | [] => none
  | v :: rest =>
    if v.id ∈ v.path then sheet.search property rest
    else match _h : sheet.get? v.id with
      | none => sheet.search property rest
      | some style =>
        match style.own property, _hb : v.budget with
        | some color, _ => some color
        | none, 0 => sheet.search property rest
        | none, budget + 1 =>
          sheet.search property (parents style (v.id :: v.path) budget ++ rest)
termination_by agenda => sheet.cost agenda
decreasing_by
  · exact cost_cons sheet v rest
  · exact cost_cons sheet v rest
  · exact cost_cons sheet v rest
  · exact cost_parents_append _h v _ _ _hb rest

/-- **The value of a property in a style**, its own or an inherited one. No path without
repetition is longer than the number of styles. -/
def resolve (sheet : StyleSheet α) (id : String) (property : StyleProperty) :
    Option (Color α) :=
  sheet.search property [⟨[], id, sheet.size⟩]

end StyleSheet

/-- The colours a box is drawn with. -/
structure ResolvedStyle (α : Type) where
  background : Option (Color α)
  text : Option (Color α)
deriving DecidableEq, Repr

/-- The colours of a style; without a style there are none. -/
def StyleSheet.resolved {α : Type} (sheet : StyleSheet α) : Option String → ResolvedStyle α
  | some id => ⟨sheet.resolve id .background, sheet.resolve id .text⟩
  | none => ⟨none, none⟩

end Schematic
