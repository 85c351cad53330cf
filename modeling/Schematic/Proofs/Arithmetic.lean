import Schematic.Proofs.Numbers
import Schematic.Proofs.RoundTrip

/-!
# Arithmetic of doubles

Doubles are numbers as they are taken for granted. A product or a quotient of two doubles is the
exact one, rounded, and what a double can hold is rounded to itself. So small natural numbers are
exact and stay so, and in the middle of the range of doubles the error is at most half a unit in
the last place. Doubles are compared as their values are, and rounded to natural numbers exactly.

* `Binary.value`: the value of a finite double.
* `Rounds.near`: how far a rounded number is off.
* `mul_parts`, `mul_near`, `div_near`: products and quotients are rounded, and off by very little.
* `natCast_parts`, `ofNat_mul`, `ofNat_div`: natural numbers up to a limit are doubles, and
  multiplied and divided exactly.
* `lt_iff_value`: the order of doubles.
* `roundNat_eq`: rounding to natural numbers.
* `doubles`: doubles are numbers as they are taken for granted.
* `exists_reread`: a document of finite doubles is printed and read again.
-/

namespace Schematic

namespace Rounding

variable {m m₁ m₂ n : ℕ} {e e₁ e₂ : ℤ} {q : ℚ}

/-- What a double can hold is rounded to itself. -/
theorem Canonical.rounds (hm : 0 < m) (hc : Canonical m e) : Rounds (m * 2 ^ e) m e := by
  have hm' : (0 : ℚ) < m := by exact_mod_cast hm
  have hunits : (m : ℚ) * 2 ^ e / 2 ^ e = m := mul_div_cancel_right₀ _ (by positivity)
  refine Decimal.rounds_of_isNearest (by positivity) hc ?_ ?_
  · rw [hunits]
    exact isNearest_natCast m
  · refine hc.normal.symm.imp_right fun hle => ?_
    have hle : (2 : ℚ) ^ 52 ≤ m := by exact_mod_cast hle
    gcongr

/-- A product has the digits for rounding, or its place is below the least one. -/
theorem Canonical.add_le_place (h₁ : 0 < m₁) (h₂ : 0 < m₂) (hc₁ : Canonical m₁ e₁)
    (hc₂ : Canonical m₂ e₂) : e₁ + e₂ ≤ place (((m₁ * m₂ : ℕ) : ℚ) * 2 ^ (e₁ + e₂)) := by
  have hproduct : (0 : ℚ) < (m₁ * m₂ : ℕ) := by exact_mod_cast Nat.mul_pos h₁ h₂
  by_cases hdigits : 2 ^ 52 ≤ m₁ * m₂
  · have hlog : 52 + (e₁ + e₂) ≤ Int.log 2 (((m₁ * m₂ : ℕ) : ℚ) * 2 ^ (e₁ + e₂)) := by
      rw [← Int.zpow_le_iff_le_log (by decide) (by positivity)]
      have hdigits : (2 : ℚ) ^ 52 ≤ (m₁ * m₂ : ℕ) := by exact_mod_cast hdigits
      calc ((2 : ℕ) : ℚ) ^ (52 + (e₁ + e₂)) = 2 ^ 52 * 2 ^ (e₁ + e₂) := by
            rw [zpow_add₀ (by norm_num)]
            norm_num
        _ ≤ (m₁ * m₂ : ℕ) * 2 ^ (e₁ + e₂) := by gcongr
    unfold place
    omega
  · -- neither of the two has all digits
    have hleft : e₁ = -1074 := hc₁.normal.resolve_left fun h =>
      hdigits (h.trans (Nat.le_mul_of_pos_right _ h₂))
    have hright : e₂ = -1074 := hc₂.normal.resolve_left fun h =>
      hdigits (h.trans (Nat.le_mul_of_pos_left _ h₁))
    unfold place
    omega

/-- Rounding a number with all digits is off by half a unit in the last place at most. -/
theorem Rounds.near (hq : 2 ^ 52 * 2 ^ place q ≤ q) (h : Rounds q m e) :
    |m * 2 ^ e - q| ≤ q / 2 ^ 53 := by
  have hpos : (0 : ℚ) < 2 ^ place q := by positivity
  have hhalf : ∀ n : ℕ, IsNearest (q / 2 ^ place q) n → |n * 2 ^ place q - q| ≤ q / 2 ^ 53 := by
    intro n hn
    have hunits : n * 2 ^ place q - q = (n - q / 2 ^ place q) * 2 ^ place q := by
      rw [sub_mul, div_mul_cancel₀ _ hpos.ne']
    rw [hunits, abs_mul, abs_of_pos hpos, abs_sub_comm]
    calc |q / 2 ^ place q - n| * 2 ^ place q ≤ 1 / 2 * 2 ^ place q := by gcongr; exact hn.near
      _ ≤ q / 2 ^ 53 := by
        rw [le_div_iff₀ (by positivity)]
        linarith
  cases h with
  | keep hn _ => exact hhalf m hn
  | carry hn =>
    have hcarry := hhalf _ hn
    rw [zpow_add_one₀ (by norm_num)]
    push_cast at hcarry ⊢
    convert hcarry using 2
    ring

/-- In the middle of the range of doubles rounding is off by very little, and finite. -/
theorem Rounds.middle (hlow : 1 / 2 ^ 100 ≤ q) (hhigh : q ≤ 2 ^ 100) (h : Rounds q m e) :
    e ≤ 971 ∧ |m * 2 ^ e - q| ≤ q / 2 ^ 53 := by
  have hq : 0 < q := lt_of_lt_of_le (by positivity) hlow
  constructor
  · rw [h.le_iff hq]
    have hlimit : (2 : ℚ) ^ 100 ≤ 2 ^ (970 : ℤ) := by
      rw [← zpow_natCast]
      exact zpow_le_zpow_right₀ (by norm_num) (by norm_num)
    rw [limit]
    generalize (2 : ℚ) ^ (970 : ℤ) = a at hlimit ⊢
    linarith
  · refine h.near ((place_le hq).resolve_left fun hplace => ?_)
    have hlt := lt_place q
    rw [hplace] at hlt
    have hsmall : (2 : ℚ) ^ 53 * 2 ^ (-1074 : ℤ) ≤ 1 / 2 ^ 100 := by
      rw [← zpow_natCast, ← zpow_natCast, ← zpow_add₀ (by norm_num), one_div, ← zpow_neg]
      exact zpow_le_zpow_right₀ (by norm_num) (by norm_num)
    linarith

/-- Of two doubles with different exponents the one with the greater one is greater. -/
theorem Canonical.lt_of_exponent (h₂ : 0 < m₂) (hc₁ : Canonical m₁ e₁) (hc₂ : Canonical m₂ e₂)
    (he : e₁ < e₂) : (m₁ : ℚ) * 2 ^ e₁ < m₂ * 2 ^ e₂ := by
  have hnormal : 2 ^ 52 ≤ m₂ := hc₂.normal.resolve_right (by have := hc₁.least; omega)
  have hless : (m₁ : ℚ) < 2 ^ 53 := by exact_mod_cast hc₁.significand
  have hnormal : (2 : ℚ) ^ 52 ≤ m₂ := by exact_mod_cast hnormal
  calc (m₁ : ℚ) * 2 ^ e₁ < 2 ^ 53 * 2 ^ e₁ := by gcongr
    _ = 2 ^ 52 * 2 ^ (e₁ + 1) := by rw [zpow_add_one₀ (by norm_num)]; ring
    _ ≤ m₂ * 2 ^ e₂ := by
      gcongr
      · norm_num
      · omega

/-- Doubles are compared by their exponents first, and then by their significands. -/
theorem Canonical.compare_eq_lt_iff (h₁ : 0 < m₁) (h₂ : 0 < m₂) (hc₁ : Canonical m₁ e₁)
    (hc₂ : Canonical m₂ e₂) :
    (compare e₁ e₂).then (compare m₁ m₂) = .lt ↔ (m₁ : ℚ) * 2 ^ e₁ < m₂ * 2 ^ e₂ := by
  rcases lt_trichotomy e₁ e₂ with he | rfl | he
  · rw [compare_lt_iff_lt.2 he]
    exact iff_of_true rfl (hc₁.lt_of_exponent h₂ hc₂ he)
  · rw [compare_eq_iff_eq.2 rfl, Ordering.eq_then, compare_lt_iff_lt,
      mul_lt_mul_iff_left₀ (by positivity), Nat.cast_lt]
  · rw [compare_gt_iff_gt.2 he]
    exact iff_of_false (by simp) (hc₂.lt_of_exponent h₁ hc₁ he).not_gt

end Rounding

namespace Decimal

open Float.Model Float.Model.UnpackedFloat
open Rounding

variable {m m₁ m₂ n : ℕ} {e e₁ e₂ : ℤ} {q : ℚ} {x y : Float} {negative negative₁ negative₂ : Bool}

/-! ### Values -/

/-- The sign of a number as a factor. -/
def signFactor (negative : Bool) : ℚ := if negative then -1 else 1

theorem abs_signFactor (negative : Bool) : |signFactor negative| = 1 := by
  cases negative <;> simp [signFactor]

theorem signFactor_bne (negative₁ negative₂ : Bool) :
    signFactor (negative₁ != negative₂) = signFactor negative₁ * signFactor negative₂ := by
  cases negative₁ <;> cases negative₂ <;> simp [signFactor]

/-- **The value of a finite double.** All others count as zero. -/
def Binary.value : Binary → ℚ
  | .finite negative m e => signFactor negative * (m * 2 ^ e)
  | _ => 0

/-! ### Products and quotients -/

/-- A product is that of the model. -/
theorem mul_eq (x y : Float) : x * y = .ofModel (.pack
    (UnpackedFloat.mul Format.binary64 x.toModel.unpack y.toModel.unpack)) := rfl

/-- A product of two finite doubles other than zero. -/
theorem mul_parts (hx : Binary.ofFloat x = .finite negative₁ m₁ e₁)
    (hy : Binary.ofFloat y = .finite negative₂ m₂ e₂) (hm₁ : 0 < m₁) (hm₂ : 0 < m₂) :
    ∃ m e, Rounds ((m₁ * 2 ^ e₁) * (m₂ * 2 ^ e₂)) m e ∧
      x * y = .ofModel (.pack (signed (signOf (negative₁ != negative₂)) m e)) := by
  have hplace := (ofBits_canonical hx).1.add_le_place hm₁ hm₂ (ofBits_canonical hy).1
  obtain ⟨m, e, hrounds, hmul⟩ := mul_rounds (signOf negative₁) (signOf negative₂) hm₁ hm₂ hplace
  have hexact : ((m₁ * m₂ : ℕ) : ℚ) * 2 ^ (e₁ + e₂) = (m₁ * 2 ^ e₁) * (m₂ * 2 ^ e₂) := by
    rw [zpow_add₀ (by norm_num)]
    push_cast
    ring
  rw [hexact] at hrounds
  refine ⟨m, e, hrounds, ?_⟩
  rw [mul_eq, unpack_finite hx hm₁, unpack_finite hy hm₂, hmul]
  cases negative₁ <;> cases negative₂ <;> rfl

/-- A rounded number in the middle of the range of doubles. -/
theorem near_of_rounds (hlow : 1 / 2 ^ 100 ≤ q) (hhigh : q ≤ 2 ^ 100) (h : Rounds q m e)
    (hx : x = .ofModel (.pack (signed (signOf negative) m e))) :
    x.isFinite = true ∧ Doubles.Near (Binary.ofFloat x).value (signFactor negative * q) := by
  have hq : 0 < q := lt_of_lt_of_le (by positivity) hlow
  obtain ⟨he, hnear⟩ := h.middle hlow hhigh
  have hparts : Binary.ofFloat x = .finite negative m e := by
    rw [hx, ofFloat_signed negative (h.canonical hq), if_pos he]
  refine ⟨(isFinite_iff x).2 ⟨_, _, _, hparts⟩, ?_⟩
  rw [hparts, Doubles.Near, Binary.value, ← mul_sub, abs_mul, abs_mul, abs_signFactor, one_mul,
    one_mul, abs_of_pos hq]
  exact hnear

theorem inRange_signFactor (hq : 0 ≤ q) :
    Doubles.InRange (signFactor negative * q) ↔ 1 / 2 ^ 100 ≤ q ∧ q ≤ 2 ^ 100 := by
  rw [Doubles.InRange, abs_mul, abs_signFactor, one_mul, abs_of_nonneg hq]

/-- **A product of doubles is off by very little** in the middle of their range. -/
theorem mul_near (hx : x.isFinite = true) (hy : y.isFinite = true)
    (hrange : Doubles.InRange ((Binary.ofFloat x).value * (Binary.ofFloat y).value)) :
    (x * y).isFinite = true ∧ Doubles.Near (Binary.ofFloat (x * y)).value
      ((Binary.ofFloat x).value * (Binary.ofFloat y).value) := by
  obtain ⟨negative₁, m₁, e₁, hx⟩ := (isFinite_iff x).1 hx
  obtain ⟨negative₂, m₂, e₂, hy⟩ := (isFinite_iff y).1 hy
  have hexact : (Binary.ofFloat x).value * (Binary.ofFloat y).value =
      signFactor (negative₁ != negative₂) * ((m₁ * 2 ^ e₁) * (m₂ * 2 ^ e₂)) := by
    rw [hx, hy, Binary.value, Binary.value, signFactor_bne]
    ring
  rw [hexact] at hrange ⊢
  obtain ⟨hlow, hhigh⟩ := (inRange_signFactor (by positivity)).1 hrange
  have hpos : (0 : ℚ) < (m₁ * 2 ^ e₁) * (m₂ * 2 ^ e₂) := lt_of_lt_of_le (by positivity) hlow
  have hm₁ : 0 < m₁ := Nat.pos_of_ne_zero fun h => by simp [h] at hpos
  have hm₂ : 0 < m₂ := Nat.pos_of_ne_zero fun h => by simp [h] at hpos
  obtain ⟨m, e, hrounds, hmul⟩ := mul_parts hx hy hm₁ hm₂
  exact near_of_rounds hlow hhigh hrounds hmul

/-- **A quotient of doubles is off by very little** in the middle of their range. -/
theorem div_near (hx : x.isFinite = true) (hy : y.isFinite = true)
    (hrange : Doubles.InRange ((Binary.ofFloat x).value / (Binary.ofFloat y).value)) :
    (x / y).isFinite = true ∧ Doubles.Near (Binary.ofFloat (x / y)).value
      ((Binary.ofFloat x).value / (Binary.ofFloat y).value) := by
  obtain ⟨negative₁, m₁, e₁, hx⟩ := (isFinite_iff x).1 hx
  obtain ⟨negative₂, m₂, e₂, hy⟩ := (isFinite_iff y).1 hy
  have hexact : (Binary.ofFloat x).value / (Binary.ofFloat y).value =
      signFactor (negative₁ != negative₂) * ((m₁ * 2 ^ e₁) / (m₂ * 2 ^ e₂)) := by
    rw [hx, hy, Binary.value, Binary.value, signFactor_bne, mul_div_mul_comm]
    cases negative₁ <;> cases negative₂ <;> simp [signFactor]
  rw [hexact] at hrange ⊢
  obtain ⟨hlow, hhigh⟩ := (inRange_signFactor (by positivity)).1 hrange
  have hpos : (0 : ℚ) < (m₁ * 2 ^ e₁) / (m₂ * 2 ^ e₂) := lt_of_lt_of_le (by positivity) hlow
  have hm₁ : 0 < m₁ := Nat.pos_of_ne_zero fun h => by simp [h] at hpos
  have hm₂ : 0 < m₂ := Nat.pos_of_ne_zero fun h => by simp [h] at hpos
  obtain ⟨m, e, hrounds, hdiv⟩ := div_parts hx hy hm₁ hm₂
  exact near_of_rounds hlow hhigh hrounds hdiv

/-- What is rounded to a double of its own value is this double. -/
theorem eq_of_rounds (hx : Binary.ofFloat x = .finite false m₁ e₁) (hm₁ : 0 < m₁)
    (h : Rounds (m₁ * 2 ^ e₁) m e) : .ofModel (.pack (signed .positive m e)) = x := by
  obtain ⟨hc, he⟩ := ofBits_canonical hx
  obtain ⟨rfl, rfl⟩ := h.unique (hc.rounds hm₁)
  refine ofFloat_injective (Eq.trans ?_ hx.symm)
  exact (ofFloat_signed false hc).trans (if_pos he)

/-! ### Natural numbers -/

/-- **Natural numbers up to a limit are doubles.** -/
theorem natCast_parts (hn : n ≤ 2 ^ 53) :
    ∃ m e, Binary.ofFloat (.ofNat n) = .finite false m e ∧ (m : ℚ) * 2 ^ e = n := by
  rcases Nat.eq_zero_or_pos n with rfl | hpos
  · exact ⟨0, -1074, by decide +kernel, by simp⟩
  rcases hn.eq_or_lt with rfl | hlt
  · exact ⟨2 ^ 52, 1, by decide +kernel, by norm_num⟩
  -- a smaller one is its double times one
  obtain ⟨m₁, e₁, hm₁, hvalue₁, hparts₁⟩ := toFloat_parts hpos hlt
  obtain ⟨m₂, e₂, hm₂, hvalue₂, hparts₂⟩ := parts_of_isPower (isPower_table ⟨0, by decide⟩)
  obtain ⟨m, e, hrounds, hmul⟩ := mul_parts hparts₁ hparts₂ hm₁ hm₂
  rw [hvalue₂, pow_zero, mul_one] at hrounds
  have hcast : Float.ofNat n = .ofModel (.pack (signed .positive m e)) := by
    have hscientific : Float.ofNat n = Float.ofScientific n false 0 := rfl
    rw [hscientific, Float.ofScientific, dif_pos ⟨hlt, by decide⟩]
    exact hmul
  refine ⟨m₁, e₁, ?_, hvalue₁⟩
  rw [hcast, eq_of_rounds hparts₁ hm₁ hrounds, hparts₁]

theorem significand_pos (hvalue : (m : ℚ) * 2 ^ e = n) (hn : 0 < n) : 0 < m := by
  by_contra hm
  obtain rfl : m = 0 := by omega
  rw [Nat.cast_zero, zero_mul] at hvalue
  exact hn.ne (by exact_mod_cast hvalue)

theorem pack_zero : Float.ofModel (.pack (.zero .positive)) = Float.ofNat 0 := by decide +kernel

theorem unpack_ofNat_zero : (Float.ofNat 0).toModel.unpack = .zero .positive := by
  have hparts : Binary.ofFloat (.ofNat 0) = .finite false 0 (-1074) := by decide +kernel
  rw [unpack_eq, hparts]
  rfl

theorem zero_mul_ofNat (hn : n ≤ 2 ^ 53) : Float.ofNat 0 * .ofNat n = .ofNat 0 := by
  obtain ⟨m, e, hparts, -⟩ := natCast_parts hn
  rw [mul_eq, unpack_ofNat_zero, unpack_eq, hparts, Binary.unpacked, signed, ← pack_zero]
  split <;> rfl

theorem mul_zero_ofNat (hn : n ≤ 2 ^ 53) : Float.ofNat n * .ofNat 0 = .ofNat 0 := by
  obtain ⟨m, e, hparts, -⟩ := natCast_parts hn
  rw [mul_eq, unpack_ofNat_zero, unpack_eq, hparts, Binary.unpacked, signed, ← pack_zero]
  split <;> rfl

theorem zero_div_ofNat (hpos : 0 < n) (hn : n ≤ 2 ^ 53) :
    Float.ofNat 0 / .ofNat n = .ofNat 0 := by
  obtain ⟨m, e, hparts, hvalue⟩ := natCast_parts hn
  rw [div_eq, unpack_ofNat_zero, unpack_finite hparts (significand_pos hvalue hpos), ← pack_zero]
  rfl

/-- Small natural numbers are multiplied exactly. -/
theorem ofNat_mul (hm : m ≤ 2 ^ 53) (hn : n ≤ 2 ^ 53) (hproduct : m * n ≤ 2 ^ 53) :
    Float.ofNat m * .ofNat n = .ofNat (m * n) := by
  rcases Nat.eq_zero_or_pos m with rfl | hmpos
  · rw [zero_mul_ofNat hn, Nat.zero_mul]
  rcases Nat.eq_zero_or_pos n with rfl | hnpos
  · rw [mul_zero_ofNat hm, Nat.mul_zero]
  obtain ⟨m₁, e₁, hparts₁, hvalue₁⟩ := natCast_parts hm
  obtain ⟨m₂, e₂, hparts₂, hvalue₂⟩ := natCast_parts hn
  obtain ⟨m₃, e₃, hparts₃, hvalue₃⟩ := natCast_parts hproduct
  obtain ⟨m', e', hrounds, hmul⟩ :=
    mul_parts hparts₁ hparts₂ (significand_pos hvalue₁ hmpos) (significand_pos hvalue₂ hnpos)
  rw [hvalue₁, hvalue₂, ← Nat.cast_mul, ← hvalue₃] at hrounds
  rw [hmul]
  exact eq_of_rounds hparts₃ (significand_pos hvalue₃ (Nat.mul_pos hmpos hnpos)) hrounds

/-- Small natural numbers are divided exactly if nothing is left. -/
theorem ofNat_div (hnpos : 0 < n) (hn : n ≤ 2 ^ 53) (hproduct : m * n ≤ 2 ^ 53) :
    Float.ofNat (m * n) / .ofNat n = .ofNat m := by
  rcases Nat.eq_zero_or_pos m with rfl | hmpos
  · rw [Nat.zero_mul, zero_div_ofNat hnpos hn]
  obtain ⟨m₁, e₁, hparts₁, hvalue₁⟩ := natCast_parts hproduct
  obtain ⟨m₂, e₂, hparts₂, hvalue₂⟩ := natCast_parts hn
  obtain ⟨m₃, e₃, hparts₃, hvalue₃⟩ :=
    natCast_parts ((Nat.le_mul_of_pos_right m hnpos).trans hproduct)
  obtain ⟨m', e', hrounds, hdiv⟩ := div_parts hparts₁ hparts₂
    (significand_pos hvalue₁ (Nat.mul_pos hmpos hnpos)) (significand_pos hvalue₂ hnpos)
  have hexact : ((m * n : ℕ) : ℚ) / n = m := by
    rw [Nat.cast_mul, mul_div_cancel_right₀ _ (by exact_mod_cast hnpos.ne')]
  rw [hvalue₁, hvalue₂, hexact, ← hvalue₃] at hrounds
  rw [hdiv]
  exact eq_of_rounds hparts₃ (significand_pos hvalue₃ hmpos) hrounds

/-! ### Order -/

/-- The model compares numbers as their values are, by their signs first. -/
theorem compare_signed (hc₁ : Canonical m₁ e₁) (hc₂ : Canonical m₂ e₂) :
    UnpackedFloat.compare (signed (signOf negative₁) m₁ e₁) (signed (signOf negative₂) m₂ e₂) =
      some .lt ↔
    signFactor negative₁ * (m₁ * 2 ^ e₁) < signFactor negative₂ * (m₂ * 2 ^ e₂) := by
  have hvalue : ∀ {m : ℕ} (e : ℤ), 0 < m → (0 : ℚ) < m * 2 ^ e := fun e hm => by positivity
  rcases Nat.eq_zero_or_pos m₁ with rfl | hm₁ <;> rcases Nat.eq_zero_or_pos m₂ with rfl | hm₂
  · rw [signed, dif_pos rfl, signed, dif_pos rfl]
    exact iff_of_false (by simp [UnpackedFloat.compare]) (by simp)
  · have hpos := hvalue e₂ hm₂
    rw [signed, dif_pos rfl, signed, dif_neg hm₂.ne']
    cases negative₂ <;> simp [signOf, signFactor, UnpackedFloat.compare, hpos, hpos.le]
  · have hpos := hvalue e₁ hm₁
    rw [signed, dif_neg hm₁.ne', signed, dif_pos rfl]
    cases negative₁ <;> simp [signOf, signFactor, UnpackedFloat.compare, hpos, hpos.le]
  · have hpos₁ := hvalue e₁ hm₁
    have hpos₂ := hvalue e₂ hm₂
    rw [signed, dif_neg hm₁.ne', signed, dif_neg hm₂.ne']
    cases negative₁ <;> cases negative₂ <;> simp only [signOf, signFactor, UnpackedFloat.compare]
    · simpa using hc₁.compare_eq_lt_iff hm₁ hm₂ hc₂
    · exact iff_of_false (by simp) (by simp; linarith)
    · exact iff_of_true rfl (by simp; linarith)
    · have hswap : ((compare e₁ e₂).then (compare m₁ m₂)).swap =
          (compare e₂ e₁).then (compare m₂ m₁) := by
        rw [Ordering.swap_then, ← Std.OrientedOrd.eq_swap, ← Std.OrientedOrd.eq_swap]
      simpa [hswap] using hc₂.compare_eq_lt_iff hm₂ hm₁ hc₁

/-- **Doubles are compared as their values are.** -/
theorem lt_iff_value (hx : x.isFinite = true) (hy : y.isFinite = true) :
    x < y ↔ (Binary.ofFloat x).value < (Binary.ofFloat y).value := by
  obtain ⟨negative₁, m₁, e₁, hx⟩ := (isFinite_iff x).1 hx
  obtain ⟨negative₂, m₂, e₂, hy⟩ := (isFinite_iff y).1 hy
  have hmodel : x < y ↔
      (UnpackedFloat.compare x.toModel.unpack y.toModel.unpack == some .lt) = true :=
    decide_eq_true_iff
  rw [hmodel, beq_iff_eq, unpack_eq, unpack_eq, hx, hy]
  exact compare_signed (ofBits_canonical hx).1 (ofBits_canonical hy).1

/-! ### Rounding to natural numbers -/

/-- A value as a quotient of natural numbers. -/
theorem value_eq_div (m : ℕ) (e : ℤ) :
    (m : ℚ) * 2 ^ e = ((m * 2 ^ e.toNat : ℕ) : ℚ) / (2 ^ (-e).toNat : ℕ) := by
  push_cast
  rw [eq_div_iff (by positivity), mul_assoc, ← zpow_natCast, ← zpow_natCast,
    ← zpow_add₀ (by norm_num)]
  congr 2
  omega

theorem floor_add_half (num : ℕ) {den : ℕ} (h : 0 < den) :
    ⌊(num : ℚ) / den + 1 / 2⌋₊ = (2 * num + den) / (2 * den) := by
  have hden : (0 : ℚ) < den := by exact_mod_cast h
  rw [← Nat.floor_div_eq_div (K := ℚ)]
  congr 1
  push_cast
  field_simp

/-- A positive double is rounded as its value is, up to what 64 bits hold. -/
theorem toNat_round (m : ℕ) (e : ℤ) :
    (Binary.finite false m e).toNat (fun num den => (2 * num + den) / (2 * den)) =
      min ⌊(Binary.finite false m e).value + 1 / 2⌋₊ (2 ^ 64 - 1) := by
  have hvalue : (Binary.finite false m e).value =
      ((m * 2 ^ e.toNat : ℕ) : ℚ) / (2 ^ (-e).toNat : ℕ) := by
    rw [← value_eq_div]
    exact one_mul _
  rw [hvalue, floor_add_half _ (by positivity)]
  rfl

/-- **A double is rounded to the nearest natural number**, and up from the middle. -/
theorem roundNat_eq (hx : x.isFinite = true) (hlow : 0 ≤ (Binary.ofFloat x).value)
    (hhigh : (Binary.ofFloat x).value ≤ 2 ^ 53) :
    Scalar.roundNat x = ⌊(Binary.ofFloat x).value + 1 / 2⌋₊ := by
  obtain ⟨negative, m, e, hx⟩ := (isFinite_iff x).1 hx
  have hround : Scalar.roundNat x =
      (Binary.ofFloat x).toNat fun num den => (2 * num + den) / (2 * den) := rfl
  rw [hround]
  rw [hx] at hlow hhigh ⊢
  cases negative with
  | true =>
    -- a negative number that is not below zero is zero
    have hnonneg : (0 : ℚ) ≤ m * 2 ^ e := by positivity
    have hzero : (Binary.finite true m e).value = 0 := by
      simp only [Binary.value, signFactor, if_true] at hlow ⊢
      linarith
    rw [hzero]
    norm_num [Binary.toNat]
  | false =>
    have hsmall : ⌊(Binary.finite false m e).value + 1 / 2⌋₊ ≤ 2 ^ 64 - 1 := by
      refine Nat.floor_le_of_le ?_
      norm_num
      linarith
    rw [toNat_round, min_eq_left hsmall]

/-! ### The assumptions -/

/-- **Doubles are numbers as they are taken for granted.** -/
noncomputable def doubles : Doubles Float where
  finite x := x.isFinite = true
  value x := (Binary.ofFloat x).value
  natCast n hn := by
    obtain ⟨m, e, hparts, hvalue⟩ := natCast_parts hn
    have hcast : ((n : ℕ) : Float) = .ofNat n := rfl
    rw [hcast, hparts]
    refine ⟨(isFinite_iff _).2 ⟨_, _, _, hparts⟩, ?_⟩
    rw [Binary.value, hvalue]
    exact one_mul _
  natCast_mul _ _ hm hn hproduct := ofNat_mul hm hn hproduct
  natCast_div _ _ hpos hn hproduct := ofNat_div hpos hn hproduct
  lt_iff _ _ hx hy := lt_iff_value hx hy
  mul _ _ hx hy hrange := mul_near hx hy hrange
  div _ _ hx hy hrange := div_near hx hy hrange
  roundNat _ hx hlow hhigh := roundNat_eq hx hlow (by exact_mod_cast hhigh)
  plain x hx := by
    obtain ⟨l, htext, hread⟩ := Literal.exists_plain hx
    refine ⟨l.negative, l.whole, l.fraction, l.whole_ne_nil, l.isDigit, ?_, hread⟩
    rw [← htext, Literal.text, String.toList_ofList]
    rfl

end Decimal

/-- **A document of finite doubles is printed and read again**: from its text the same document is
read in every declaration. -/
theorem exists_reread {source : String} {d : Document Float} (hd : parse source = .ok d)
    (hfinite : ∀ x ∈ d.numbers, x.isFinite = true) :
    ∃ d', parse d.text = .ok d' ∧ d'.bare = d.bare := by
  refine Document.exists_parse_text (parse_sound (h := Decimal.doubles) (fun x hx => ?_) hd)
  obtain ⟨tokens, hlex, hdocument⟩ := parse_eq_ok_iff_isDocument.1 hd
  refine hfinite x ?_
  rw [← hdocument.numbers, eq_tokensOf_of_lex hlex]
  exact hx

end Schematic
