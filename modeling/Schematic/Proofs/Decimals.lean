import Mathlib
import Schematic.Proofs.Packing

/-!
# Decimals as doubles

The double that a decimal is read as is the one it is rounded to. Decimals with few digits and few
places are read by one division of doubles, of the digits by a power of ten: both are doubles
themselves, so that only the quotient is rounded. All others are divided as they are, with as many
binary places more as rounding needs, and those with far more places than digits are zero.

* `div_rounds`: division in the model rounds the exact quotient.
* `round_rounds`: so does rounding, of a number that is known exactly.
* `isPower_table`: the powers of ten up to the twenty-second are doubles.
* `ofScientific_rounds`: a decimal is read as the double it is rounded to.
-/

namespace Schematic.Rounding

open Float.Model Float.Model.UnpackedFloat

variable {m m₁ m₂ n : ℕ} {e : ℤ}

/-! ### Quotients -/

theorem accuracyOfFraction_fits (hlt : m < n) : Fits ((m : ℚ) / n) (accuracyOfFraction m n) := by
  have hpos : (0 : ℚ) < n := by exact_mod_cast Nat.zero_lt_of_lt hlt
  unfold accuracyOfFraction
  split
  · rename_i hm
    simp [Fits, hm]
  · rename_i hm
    have hm : (0 : ℚ) < m := by exact_mod_cast Nat.pos_of_ne_zero hm
    have hlt : (m : ℚ) < n := by exact_mod_cast hlt
    cases hcompare : compare (2 * m) n with
    | lt =>
      have hhalf : 2 * (m : ℚ) < n := by exact_mod_cast Nat.compare_eq_lt.1 hcompare
      exact ⟨by positivity, by rw [div_lt_iff₀ hpos]; linarith⟩
    | eq =>
      have hhalf : 2 * (m : ℚ) = n := by exact_mod_cast Nat.compare_eq_eq.1 hcompare
      change (m : ℚ) / n = 1 / 2
      rw [div_eq_iff hpos.ne']
      linarith
    | gt =>
      have hhalf : (n : ℚ) < 2 * m := by exact_mod_cast Nat.compare_eq_gt.1 hcompare
      exact ⟨by rw [lt_div_iff₀ hpos]; linarith, by rw [div_lt_one hpos]; exact hlt⟩

/-- The place of a quotient is found by the sizes of its parts, or the next one is. -/
theorem targetExponent_le_place (h₁ : 0 < m₁) (h₂ : 0 < m₂) (e₁ e₂ : ℤ) :
    Format.binary64.targetExponent (totalExponent m₁ e₁ - totalExponent m₂ e₂) ≤
      place ((m₁ * 2 ^ e₁) / (m₂ * 2 ^ e₂)) := by
  have hself : 2 ^ m₁.log2 ≤ m₁ := Nat.log2_self_le h₁.ne'
  have hlt : m₂ < 2 ^ (m₂.log2 + 1) := Nat.lt_log2_self
  have hm₁ : (0 : ℚ) < m₁ := by exact_mod_cast h₁
  have hm₂ : (0 : ℚ) < m₂ := by exact_mod_cast h₂
  have hlog : (m₁.log2 : ℤ) + e₁ - (m₂.log2 + 1 + e₂) ≤
      Int.log 2 (((m₁ : ℚ) * 2 ^ e₁) / (m₂ * 2 ^ e₂)) := by
    rw [← Int.zpow_le_iff_le_log (by decide) (by positivity), le_div_iff₀ (by positivity)]
    calc ((2 : ℕ) : ℚ) ^ ((m₁.log2 : ℤ) + e₁ - (m₂.log2 + 1 + e₂)) * (m₂ * 2 ^ e₂)
        ≤ (2 : ℚ) ^ ((m₁.log2 : ℤ) + e₁ - (m₂.log2 + 1 + e₂)) *
          (2 ^ (m₂.log2 + 1) * 2 ^ e₂) := by
          push_cast
          gcongr
          exact_mod_cast hlt.le
      _ = 2 ^ m₁.log2 * 2 ^ e₁ := by
          rw [← zpow_natCast, ← zpow_natCast, ← zpow_add₀ (by norm_num),
            ← zpow_add₀ (by norm_num), ← zpow_add₀ (by norm_num)]
          congr 1
          push_cast
          ring
      _ ≤ m₁ * 2 ^ e₁ := by
          gcongr
          exact_mod_cast hself
  rw [targetExponent_binary64, totalExponent, totalExponent, place]
  omega

/-- **Division in the model** rounds the exact quotient. -/
theorem div_rounds (s₁ s₂ : Sign) (h₁ : 0 < m₁) (h₂ : 0 < m₂) (e₁ e₂ : ℤ) :
    ∃ m e, Rounds ((m₁ * 2 ^ e₁) / (m₂ * 2 ^ e₂)) m e ∧
      UnpackedFloat.div Format.binary64 (.finite s₁ m₁ e₁ h₁) (.finite s₂ m₂ e₂ h₂) =
        signed (s₁ / s₂) m e := by
  have hplace := targetExponent_le_place h₁ h₂ e₁ e₂
  simp only [UnpackedFloat.div, divCore]
  generalize Format.binary64.targetExponent (totalExponent m₁ e₁ - totalExponent m₂ e₂) = t
    at hplace
  have hm₁ : (0 : ℚ) < m₁ := by exact_mod_cast h₁
  have hm₂ : (0 : ℚ) < m₂ := by exact_mod_cast h₂
  have hshift : ((e₁ - e₂ - min (e₁ - e₂) t).toNat : ℤ) = e₁ - e₂ - min (e₁ - e₂) t :=
    Int.toNat_of_nonneg (by omega)
  refine roundWithAccuracy_rounds _ (by positivity) ?_ ((min_le_right _ _).trans hplace)
  -- the shifted quotient and its rest
  generalize (e₁ - e₂ - min (e₁ - e₂) t).toNat = s at hshift ⊢
  generalize min (e₁ - e₂) t = t at hshift ⊢
  have hexact : (m₁ * 2 ^ e₁) / (m₂ * 2 ^ e₂) / 2 ^ t - ((m₁ <<< s / m₂ : ℕ) : ℚ) =
      ((m₁ <<< s % m₂ : ℕ) : ℚ) / m₂ := by
    have hdiv : ((m₁ <<< s : ℕ) : ℚ) =
        m₂ * ((m₁ <<< s / m₂ : ℕ) : ℚ) + ((m₁ <<< s % m₂ : ℕ) : ℚ) := by
      exact_mod_cast (Nat.div_add_mod _ _).symm
    have hleft : ((m₁ <<< s : ℕ) : ℚ) = m₁ * 2 ^ (e₁ - e₂ - t) := by
      rw [Nat.shiftLeft_eq, ← hshift, zpow_natCast]
      push_cast
      rfl
    rw [eq_div_iff hm₂.ne', sub_mul]
    rw [zpow_sub₀ (by norm_num), zpow_sub₀ (by norm_num)] at hleft
    have hfirst : (m₁ * (2 : ℚ) ^ e₁) / (m₂ * 2 ^ e₂) / 2 ^ t * m₂ = ((m₁ <<< s : ℕ) : ℚ) := by
      rw [hleft]
      field_simp
    linarith
  rw [hexact]
  exact accuracyOfFraction_fits (Nat.mod_lt _ h₂)

/-- Multiplication in the model rounds the exact product, if that has the digits for it. -/
theorem mul_rounds (s₁ s₂ : Sign) (h₁ : 0 < m₁) (h₂ : 0 < m₂) {e₁ e₂ : ℤ}
    (he : e₁ + e₂ ≤ place (((m₁ * m₂ : ℕ) : ℚ) * 2 ^ (e₁ + e₂))) :
    ∃ m e, Rounds (((m₁ * m₂ : ℕ) : ℚ) * 2 ^ (e₁ + e₂)) m e ∧
      UnpackedFloat.mul Format.binary64 (.finite s₁ m₁ e₁ h₁) (.finite s₂ m₂ e₂ h₂) =
        signed (s₁ * s₂) m e := by
  have hpos : (0 : ℚ) < (m₁ * m₂ : ℕ) := by exact_mod_cast Nat.mul_pos h₁ h₂
  refine roundWithAccuracy_rounds _ (by positivity) ?_ he
  change _ = (0 : ℚ)
  rw [mul_div_cancel_right₀ _ (by positivity), sub_self]

/-! ### Natural numbers -/

/-- A natural number of 53 places at most is rounded to itself. -/
theorem Rounds.natCast_eq (hn : 0 < n) (hlt : n < 2 ^ 53) (h : Rounds n m e) :
    (m : ℚ) * 2 ^ e = n := by
  have hpos : (0 : ℚ) < n := by exact_mod_cast hn
  have hplace : place n ≤ 0 := by
    have hlog : Int.log 2 (n : ℚ) < 53 := by
      rw [← Int.lt_zpow_iff_log_lt (by decide) hpos]
      exact_mod_cast hlt
    unfold place
    omega
  have hunits : (n : ℚ) / 2 ^ place n = ((n * 2 ^ (-place n).toNat : ℕ) : ℚ) := by
    have hneg : ((-place n).toNat : ℤ) = -place n := Int.toNat_of_nonneg (by omega)
    push_cast
    rw [← zpow_natCast, hneg, zpow_neg, div_eq_mul_inv]
  have hself := isNearest_natCast (n * 2 ^ (-place n).toNat)
  rw [← hunits] at hself
  cases h with
  | keep hnear _ =>
    rw [hnear.unique hself, ← hunits]
    exact div_mul_cancel₀ _ (by positivity)
  | carry hnear =>
    have hle := hnear.unique hself
    have hplace_lt := lt_place n
    rw [← div_lt_iff₀ (by positivity), hunits] at hplace_lt
    have hplace_lt : n * 2 ^ (-place n).toNat < 2 ^ 53 := by exact_mod_cast hplace_lt
    omega

/-- Rounding in the model, when the exponent may have to be decreased. -/
theorem round_rounds (s : Sign) (hm : 0 < m) (e : ℤ) :
    ∃ m' e', Rounds (m * 2 ^ e) m' e' ∧
      UnpackedFloat.round Format.binary64 s m e = signed s m' e' := by
  have hpos : (0 : ℚ) < m := by exact_mod_cast hm
  have hexact : Fits ((m : ℚ) * 2 ^ e / 2 ^ e - m) .exact := by
    change _ = (0 : ℚ)
    rw [mul_div_cancel_right₀ _ (by positivity), sub_self]
  have hplace := targetExponent_eq_place (by positivity) hexact fun h => absurd h hm.ne'
  simp only [UnpackedFloat.round, decreaseExponent, hplace]
  generalize hs : (e - place ((m : ℚ) * 2 ^ e)).toNat = s'
  refine roundWithAccuracy_rounds s (by positivity) ?_ (by omega)
  change _ = (0 : ℚ)
  rw [Nat.shiftLeft_eq, zpow_sub₀ (by norm_num), zpow_natCast]
  push_cast
  field_simp
  ring

end Schematic.Rounding

namespace Schematic.Decimal

open Float.Model Float.Model.UnpackedFloat
open Rounding

variable {m m₁ m₂ n k : ℕ} {e e₁ e₂ : ℤ} {x y : Float} {negative₁ negative₂ : Bool}

/-- The double of a natural number of 53 places at most. -/
theorem toFloat_parts (hn : 0 < n) (hlt : n < 2 ^ 53) :
    ∃ (m : ℕ) (e : ℤ), 0 < m ∧ (m : ℚ) * 2 ^ e = n ∧
      Binary.ofFloat n.toUInt64.toFloat = .finite false m e := by
  have hpos : (0 : ℚ) < n := by exact_mod_cast hn
  obtain ⟨m, e, hrounds, hround⟩ := round_rounds .positive hn 0
  rw [zpow_zero, mul_one] at hrounds
  have hc := hrounds.canonical hpos
  have hvalue := hrounds.natCast_eq hn hlt
  have hm : 0 < m := by
    by_contra hm
    obtain rfl : m = 0 := by omega
    rw [Nat.cast_zero, zero_mul] at hvalue
    exact hpos.ne hvalue
  have he : e ≤ 971 := by
    rw [hrounds.le_iff hpos]
    have hlt : (n : ℚ) < 2 ^ 53 := by exact_mod_cast hlt
    have hone : (1 : ℚ) ≤ 2 ^ (970 : ℤ) := one_le_zpow₀ (by norm_num) (by norm_num)
    unfold limit
    generalize (2 : ℚ) ^ (970 : ℤ) = a at hone ⊢
    linarith
  have hnat : n.toUInt64.toNat = n := by
    rw [Nat.toUInt64_eq, UInt64.toNat_ofNat']
    exact Nat.mod_eq_of_lt (by omega)
  have htoFloat : n.toUInt64.toFloat = .ofModel (.pack (signed .positive m e)) := by
    have hcompare : compare (n : ℤ) 0 = .gt := Int.compare_eq_gt.2 (by exact_mod_cast hn)
    rw [UInt64.toFloat, Float.Model.ofUInt64, UnpackedFloat.ofUInt64, UnpackedFloat.ofNat,
      UnpackedFloat.ofInt, hnat, UnpackedFloat.normalize, hcompare, ← hround]
    rfl
  refine ⟨m, e, hm, hvalue, ?_⟩
  have hpack := ofFloat_signed false hc
  rw [if_pos he] at hpack
  rw [htoFloat]
  exact hpack

/-! ### Powers of ten -/

/-- Whether the parts of a double make up a power of ten. -/
def isPower (k : ℕ) : Binary → Bool
  | .finite false m e => -52 ≤ e && m * 2 ^ (e + 52).toNat == 10 ^ k * 2 ^ 52
  | _ => false

theorem isPower_table : ∀ k : Fin Float.exactlyRepresentablePowersOfTen.size,
    isPower k (.ofFloat Float.exactlyRepresentablePowersOfTen[k]) = true := by
  decide +kernel

theorem parts_of_isPower {x : Float} (h : isPower k (.ofFloat x) = true) :
    ∃ (m : ℕ) (e : ℤ), 0 < m ∧ (m : ℚ) * 2 ^ e = 10 ^ k ∧ Binary.ofFloat x = .finite false m e := by
  unfold isPower at h
  split at h
  · rename_i m e hx
    simp only [Bool.and_eq_true, decide_eq_true_eq, beq_iff_eq] at h
    obtain ⟨he, hpower⟩ := h
    have hm : 0 < m := by
      by_contra hm
      obtain rfl : m = 0 := by omega
      rw [Nat.zero_mul] at hpower
      have : 0 < 10 ^ k * 2 ^ 52 := by positivity
      omega
    have hpower : (m : ℚ) * 2 ^ (e + 52).toNat = 10 ^ k * 2 ^ 52 := by exact_mod_cast hpower
    refine ⟨m, e, hm, ?_, hx⟩
    rw [← zpow_natCast, Int.toNat_of_nonneg (by omega), zpow_add₀ (by norm_num), ← mul_assoc,
      ← zpow_natCast 2 52] at hpower
    exact mul_right_cancel₀ (by positivity) hpower
  · simp at h

/-! ### Decimals -/

/-- A quotient is that of the model. -/
theorem div_eq (x y : Float) : x / y = .ofModel (.pack
    (UnpackedFloat.div Format.binary64 x.toModel.unpack y.toModel.unpack)) := rfl

/-- A quotient of two finite doubles other than zero. -/
theorem div_parts (hx : Binary.ofFloat x = .finite negative₁ m₁ e₁)
    (hy : Binary.ofFloat y = .finite negative₂ m₂ e₂) (hm₁ : 0 < m₁) (hm₂ : 0 < m₂) :
    ∃ m e, Rounds ((m₁ * 2 ^ e₁) / (m₂ * 2 ^ e₂)) m e ∧
      x / y = .ofModel (.pack (signed (signOf (negative₁ != negative₂)) m e)) := by
  obtain ⟨m, e, hrounds, hdiv⟩ := div_rounds (signOf negative₁) (signOf negative₂) hm₁ hm₂ e₁ e₂
  refine ⟨m, e, hrounds, ?_⟩
  rw [div_eq, unpack_finite hx hm₁, unpack_finite hy hm₂, hdiv]
  cases negative₁ <;> cases negative₂ <;> rfl

/-- What is much less than the least double is rounded to zero. -/
theorem rounds_zero {q : ℚ} (hq : 0 < q) (hlt : q < 2 ^ (-1075 : ℤ)) : Rounds q 0 (-1074) := by
  have hpow : (2 : ℚ) ^ (-1075 : ℤ) = 2 ^ (-1074 : ℤ) / 2 := by
    rw [show (-1075 : ℤ) = -1074 - 1 from rfl, zpow_sub_one₀ (by norm_num), div_eq_mul_inv]
  have hpos : (0 : ℚ) < 2 ^ (-1074 : ℤ) := by positivity
  rw [hpow] at hlt
  have hplace : place q = -1074 := by
    refine place_eq hq le_rfl ?_ (.inl rfl)
    generalize (2 : ℚ) ^ (-1074 : ℤ) = a at hlt hpos ⊢
    linarith
  have hhalf : q / 2 ^ (-1074 : ℤ) < 1 / 2 := by
    rw [div_lt_iff₀ hpos]
    linarith
  have habs : |q / 2 ^ (-1074 : ℤ) - (0 : ℕ)| = q / 2 ^ (-1074 : ℤ) := by
    rw [Nat.cast_zero, sub_zero, abs_of_pos (by positivity)]
  rw [← hplace] at habs hhalf ⊢
  exact .keep ⟨habs.trans_le hhalf.le, fun heq => absurd (habs.symm.trans heq) hhalf.ne⟩ (by decide)

/-- A decimal with far more places than digits is much less than the least double. -/
theorem decimal_lt (hk : 2048 + n.log2 < k) : (n : ℚ) / 10 ^ k < 2 ^ (-1075 : ℤ) := by
  have hlt : (n : ℚ) < 2 ^ (n.log2 + 1) := by exact_mod_cast Nat.lt_log2_self (n := n)
  rw [div_lt_iff₀ (by positivity)]
  calc (n : ℚ) < 2 ^ (n.log2 + 1) := hlt
    _ = 2 ^ ((n.log2 : ℤ) + 1) := by rw [← zpow_natCast]; push_cast; rfl
    _ ≤ 2 ^ (-1075 + (k : ℤ)) := zpow_le_zpow_right₀ (by norm_num) (by omega)
    _ = 2 ^ (-1075 : ℤ) * 2 ^ k := by rw [zpow_add₀ (by norm_num), zpow_natCast]
    _ ≤ 2 ^ (-1075 : ℤ) * 10 ^ k := by gcongr; norm_num

/-- Decimals in the model. -/
theorem ofScientific_model (hn : 0 < n) (k : ℕ) :
    ∃ m e, Rounds (n / 10 ^ k) m e ∧
      UnpackedFloat.ofScientific Format.binary64 n (Int.negOfNat k) = signed .positive m e := by
  have hpos : (0 : ℚ) < n := by exact_mod_cast hn
  have hneg : Int.negOfNat k = -(k : ℤ) := Int.negOfNat_eq
  have hbound : ¬Int.negOfNat k > 2 ^ 11 := by omega
  simp only [UnpackedFloat.ofScientific, hn.ne', dite_false, if_neg hbound]
  split
  · rename_i hfar
    have hfar : Int.negOfNat k < -(2 ^ 11 + (n.log2 : ℤ)) := hfar
    exact ⟨0, -1074, rounds_zero (by positivity) (decimal_lt (by omega)), zero_eq_signed rfl⟩
  split
  · -- no places, which the model takes for a product with one
    obtain rfl : k = 0 := by omega
    rw [pow_zero, div_one]
    have hvalue : ((n <<< 53 * 1 : ℕ) : ℚ) * 2 ^ (-53 + 0 : ℤ) = n := by
      rw [Nat.shiftLeft_eq]
      push_cast
      norm_num [mul_assoc]
    have hplace : (-53 + 0 : ℤ) ≤ place (((n <<< 53 * 1 : ℕ) : ℚ) * 2 ^ (-53 + 0 : ℤ)) := by
      have hlog : 0 ≤ Int.log 2 (n : ℚ) := by
        rw [← Int.zpow_le_iff_le_log (by decide) hpos]
        exact_mod_cast hn
      rw [hvalue]
      unfold place
      omega
    have hshifted : 0 < n <<< 53 := by
      rw [Nat.shiftLeft_eq]
      positivity
    obtain ⟨m, e, hrounds, hmul⟩ := mul_rounds .positive .positive hshifted one_pos hplace
    rw [hvalue] at hrounds
    exact ⟨m, e, hrounds, hmul⟩
  · obtain ⟨m, e, hrounds, hdiv⟩ := div_rounds .positive .positive hn (by positivity : 0 < 10 ^ k) 0 0
    have hplaces : (-Int.negOfNat k).toNat = k := by omega
    rw [zpow_zero, mul_one, mul_one] at hrounds
    refine ⟨m, e, by exact_mod_cast hrounds, ?_⟩
    simp only [hplaces]
    exact hdiv

/-- **A decimal is read as the double it is rounded to.** -/
theorem ofScientific_rounds (hn : 0 < n) (k : ℕ) :
    ∃ m e, Rounds (n / 10 ^ k) m e ∧
      Float.ofScientific n true k = .ofModel (.pack (signed .positive m e)) := by
  unfold Float.ofScientific
  split
  · rename_i h
    obtain ⟨m₁, e₁, hm₁, hvalue₁, hparts₁⟩ := toFloat_parts hn h.1
    obtain ⟨m₂, e₂, hm₂, hvalue₂, hparts₂⟩ :=
      parts_of_isPower (isPower_table ⟨k, Nat.lt_succ_of_le h.2⟩)
    obtain ⟨m, e, hrounds, hdiv⟩ := div_parts hparts₁ hparts₂ hm₁ hm₂
    rw [hvalue₁, hvalue₂] at hrounds
    exact ⟨m, e, hrounds, hdiv⟩
  · obtain ⟨m, e, hrounds, hmodel⟩ := ofScientific_model hn k
    exact ⟨m, e, hrounds, congrArg (Float.ofModel <| .pack ·) hmodel⟩

/-- Zero is read as zero, however many places it has. -/
theorem ofScientific_zero (k : ℕ) :
    Float.ofScientific 0 true k = .ofModel (.pack (signed .positive 0 (-1074))) := by
  have hparts : Binary.ofFloat (0 : ℕ).toUInt64.toFloat = .finite false 0 (-1074) := by
    decide +kernel
  have hzero : (0 : ℕ).toUInt64.toFloat.toModel.unpack = .zero .positive := by
    rw [unpack_eq, hparts]
    rfl
  unfold Float.ofScientific
  split
  · rename_i h
    obtain ⟨m, e, hm, -, hpower⟩ := parts_of_isPower (isPower_table ⟨k, Nat.lt_succ_of_le h.2⟩)
    have hunpack := unpack_finite hpower hm
    have hdiv : UnpackedFloat.div Format.binary64 (.zero .positive) (.finite (signOf false) m e hm) =
        signed .positive 0 (-1074) := rfl
    rw [← hdiv, ← hzero, ← hunpack]
    rfl
  · exact congrArg (Float.ofModel <| .pack ·) rfl

end Schematic.Decimal
