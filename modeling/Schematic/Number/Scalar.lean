import Schematic.Number.Decimal

/-!
# Scalars

The numbers a diagram is measured in. Every stage is written once over a type of
scalars: diagrams are drawn with doubles, and the same definitions read over the
rationals say what is meant before any rounding.

* `Scalar`: arithmetic, order and the three ways to reach a natural number.
* `Scalar.clamp`, `Scalar.larger`, `Scalar.signum`: what drawing needs on top.
-/

namespace Schematic

/-- A type of scalars: a field with a decidable order and rounding to naturals. -/
class Scalar (α : Type) extends Add α, Sub α, Mul α, Div α, Neg α, LE α, LT α, BEq α, NatCast α where
  /-- The order can be tested. -/
  decLe : (a b : α) → Decidable (a ≤ b)
  /-- The strict order can be tested. -/
  decLt : (a b : α) → Decidable (a < b)
  /-- The least natural number at or above a scalar. -/
  ceilNat : α → Nat
  /-- The greatest natural number at or below a scalar, `0` for negative ones. -/
  floorNat : α → Nat
  /-- The nearest natural number, the larger one in the middle. -/
  roundNat : α → Nat

namespace Scalar

instance {α : Type} [Scalar α] (a b : α) : Decidable (a ≤ b) := decLe a b

instance {α : Type} [Scalar α] (a b : α) : Decidable (a < b) := decLt a b

/-- Doubles. What is not a number, or below zero, reaches the natural number `0`, and nothing
reaches more than 64 bits hold. -/
instance : Scalar Float where
  natCast := Float.ofNat
  decLe := Float.decLe
  decLt := Float.decLt
  ceilNat x := (Decimal.Binary.ofFloat x).toNat fun a b => (a + b - 1) / b
  floorNat x := (Decimal.Binary.ofFloat x).toNat fun a b => a / b
  roundNat x := (Decimal.Binary.ofFloat x).toNat fun a b => (2 * a + b) / (2 * b)

/-- Exact rational numbers. -/
instance : Scalar Rat where
  decLe := inferInstance
  decLt := inferInstance
  ceilNat x := x.ceil.toNat
  floorNat x := x.floor.toNat
  roundNat x := (x + 1 / 2).floor.toNat

variable {α : Type} [Scalar α]

/-- Zero. -/
@[inline] def zero : α := ((0 : Nat) : α)

/-- One. -/
@[inline] def one : α := ((1 : Nat) : α)

/-- Two. -/
@[inline] def two : α := ((2 : Nat) : α)

/-- Half of a scalar. -/
@[inline] def half (x : α) : α := x / two

/-- The scalar nearest to `x` between `low` and `high`. -/
@[inline] def clamp (low high x : α) : α :=
  if x < low then low else if high < x then high else x

/-- The larger of two scalars, the first one if they do not compare. -/
@[inline] def larger (x y : α) : α := if x < y then y else x

/-- The direction of a difference: `1` upwards, `-1` downwards. -/
@[inline] def signum (x : α) : α := if zero < x then one else if x < zero then -one else x

end Scalar

end Schematic
