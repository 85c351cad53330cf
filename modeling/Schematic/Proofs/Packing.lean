import Mathlib
import Schematic.Number.Decimal
import Schematic.Proofs.Rounding

/-!
# Doubles and their parts

A double is kept in 64 bits: its sign, its exponent and its significand. What is read off these
bits is what the model takes the double for, and a rounded number is packed into the bits that it
is read off again, unless its exponent is too large.

* `ofFloat_signed`: the double of a rounded number.
* `unpack_eq`: the parts of a double are what it is in the model.
* `ofFloat_neg`: the other sign.
* `ofFloat_injective`: a double is known by its parts.
-/

namespace Schematic.Decimal

open Float.Model Float.Model.UnpackedFloat
open Rounding

variable {m n : ℕ} {e : ℤ} {negative : Bool} {x y : Float} {b : ℕ}

/-- The sign of the model. -/
def signOf (negative : Bool) : Sign := if negative then .negative else .positive

/-! ### Fields -/

theorem toNat_packComponents (negative : Bool) (exponent : BitVec 11) (mantissa : BitVec 52) :
    (packComponents Format.binary64 (signOf negative) exponent mantissa).toNat =
      negative.toNat * 2 ^ 63 + exponent.toNat * 2 ^ 52 + mantissa.toNat := by
  have hsign : (signOf negative).toBitVec.toNat = negative.toNat := by cases negative <;> rfl
  have hexponent := exponent.isLt
  have hmantissa := mantissa.isLt
  rw [packComponents, BitVec.toNat_append, BitVec.toNat_append, hsign,
    ← Nat.shiftLeft_add_eq_or_of_lt hexponent, ← Nat.shiftLeft_add_eq_or_of_lt hmantissa,
    Nat.shiftLeft_eq, Nat.shiftLeft_eq]
  ring

/-- The parts of a double with the given fields. -/
theorem ofBits_fields (negative : Bool) {exponent mantissa : ℕ} (he : exponent < 2 ^ 11)
    (hm : mantissa < 2 ^ 52) :
    Binary.ofBits (negative.toNat * 2 ^ 63 + exponent * 2 ^ 52 + mantissa) =
      if exponent = 2047 then if mantissa = 0 then .infinite negative else .nan
      else if exponent = 0 then .finite negative mantissa (-1074)
      else .finite negative (2 ^ 52 + mantissa) (exponent - 1075) := by
  have hn := negative.toNat_lt
  have hsign : ((negative.toNat * 2 ^ 63 + exponent * 2 ^ 52 + mantissa) / Nat.pow 2 63 % 2 == 1) =
      negative := by
    have hdiv : (negative.toNat * 2 ^ 63 + exponent * 2 ^ 52 + mantissa) / Nat.pow 2 63 % 2 =
        negative.toNat := by
      change _ / 2 ^ 63 % 2 = _
      omega
    rw [hdiv]
    cases negative <;> rfl
  have hexponent : (negative.toNat * 2 ^ 63 + exponent * 2 ^ 52 + mantissa) / Nat.pow 2 52 %
      Nat.pow 2 11 = exponent := by
    change _ / 2 ^ 52 % 2 ^ 11 = _
    omega
  have hfraction : (negative.toNat * 2 ^ 63 + exponent * 2 ^ 52 + mantissa) % Nat.pow 2 52 =
      mantissa := by
    change _ % 2 ^ 52 = _
    omega
  simp only [Binary.ofBits, hsign, hexponent, hfraction, beq_iff_eq]
  rfl

theorem ofFloat_pack (f : UnpackedFloat) :
    Binary.ofFloat (.ofModel (.pack f)) = .ofBits (UnpackedFloat.pack Format.binary64 f).toNat :=
  rfl

/-! ### Packing -/

/-- The exponent field of a significand and an exponent. -/
def exponentField (m : ℕ) (e : ℤ) : ℕ := if m < 2 ^ 52 then 0 else (e + 1075).toNat

theorem biasedExponent_binary64 (e : ℤ) :
    (e + Format.binary64.exponentBias + (52 : ℕ)).toNat = (e + 1075).toNat := by
  congr 1
  change e + 1023 + 52 = _
  omega

/-- The bits of a number that is not too large. -/
theorem pack_signed (hc : Canonical m e) (he : e ≤ 971) :
    (UnpackedFloat.pack Format.binary64 (signed (signOf negative) m e)).toNat =
      negative.toNat * 2 ^ 63 + exponentField m e * 2 ^ 52 + m % 2 ^ 52 := by
  obtain ⟨hm, hleast, hnormal⟩ := hc
  by_cases hzero : m = 0
  · subst hzero
    exact toNat_packComponents negative 0 0
  have hsmall : ¬2 ^ 11 ≤ (e + 1075).toNat + 1 := by omega
  rw [signed, dif_neg hzero]
  simp only [UnpackedFloat.pack, biasedExponent_binary64]
  rw [if_neg hsmall]
  rcases Nat.lt_or_ge m (2 ^ 52) with hlt | hle
  · have hlog : ¬m.log2 + 1 = Format.binary64.mantissaBits := by
      have := (Nat.log2_lt hzero).2 hlt
      change ¬m.log2 + 1 = 53
      omega
    rw [if_neg hlog, toNat_packComponents, exponentField, if_pos hlt]
    rfl
  · have hlog : m.log2 + 1 = Format.binary64.mantissaBits := by
      have h₁ := (Nat.log2_lt hzero).2 hm
      have h₂ := (Nat.le_log2 hzero).2 hle
      change m.log2 + 1 = 53
      omega
    have hexponent : (e + 1075).toNat % 2 ^ 11 = (e + 1075).toNat := Nat.mod_eq_of_lt (by omega)
    rw [if_pos hlog, toNat_packComponents, exponentField, if_neg (by omega), BitVec.toNat_ofNat,
      BitVec.toNat_ofNat, hexponent]

/-- The bits of an infinity. -/
theorem toNat_packedInfinity (negative : Bool) :
    (packedInfinity Format.binary64 (signOf negative)).toNat =
      negative.toNat * 2 ^ 63 + 2047 * 2 ^ 52 + 0 :=
  toNat_packComponents negative _ _

theorem pack_signed_large (hc : Canonical m e) (he : 971 < e) :
    UnpackedFloat.pack Format.binary64 (signed (signOf negative) m e) =
      packedInfinity Format.binary64 (signOf negative) := by
  have hm : m ≠ 0 := by have := hc.normal; omega
  have hlarge : 2 ^ 11 ≤ (e + 1075).toNat + 1 := by omega
  rw [signed, dif_neg hm]
  simp only [UnpackedFloat.pack, biasedExponent_binary64]
  exact if_pos hlarge

theorem ofFloat_packedInfinity (negative : Bool) :
    Binary.ofFloat (.ofModel (.pack (.infinity (signOf negative)))) = .infinite negative := by
  rw [ofFloat_pack, UnpackedFloat.pack, toNat_packedInfinity,
    ofBits_fields negative (by decide) (by decide)]
  rfl

/-- **A rounded number as a double**: itself, or infinite if its exponent is too large. -/
theorem ofFloat_signed (negative : Bool) (hc : Canonical m e) :
    Binary.ofFloat (.ofModel (.pack (signed (signOf negative) m e))) =
      if e ≤ 971 then .finite negative m e else .infinite negative := by
  rw [ofFloat_pack]
  split
  · rename_i he
    have hfield : exponentField m e < 2047 := by
      unfold exponentField
      split <;> omega
    obtain ⟨hm, hleast, hnormal⟩ := hc
    rw [pack_signed ⟨hm, hleast, hnormal⟩ he,
      ofBits_fields negative (by omega) (Nat.mod_lt _ (by decide)), if_neg hfield.ne]
    unfold exponentField
    split
    · rename_i hlt
      rw [if_pos rfl, Nat.mod_eq_of_lt hlt]
      congr 1
      omega
    · rename_i hle
      rw [if_neg (by omega)]
      congr 1 <;> omega
  · rename_i he
    rw [pack_signed_large hc (not_le.1 he)]
    exact ofFloat_packedInfinity negative

/-! ### Unpacking -/

/-- What the parts of a double are in the model. -/
def Binary.unpacked : Binary → UnpackedFloat
  | .nan => .notANumber
  | .infinite negative => .infinity (signOf negative)
  | .finite negative m e => signed (signOf negative) m e

theorem toNat_unpackMantissa (b : BitVec Format.binary64.numBits) :
    (unpackMantissa b).toNat = b.toNat % 2 ^ 52 := by
  rw [unpackMantissa, BitVec.toNat_cast, BitVec.extractLsb_toNat]
  rfl

theorem toNat_unpackExponent (b : BitVec Format.binary64.numBits) :
    (unpackExponent b).toNat = b.toNat / 2 ^ 52 % 2 ^ 11 := by
  rw [unpackExponent, BitVec.toNat_cast, BitVec.extractLsb_toNat, Nat.shiftRight_eq_div_pow]
  rfl

theorem ofBitVec_unpackSign (b : BitVec Format.binary64.numBits) :
    Sign.ofBitVec (unpackSign b) = signOf (b.toNat / 2 ^ 63 % 2 == 1) := by
  have hsign : (unpackSign b).toNat = b.toNat / 2 ^ 63 % 2 := by
    rw [unpackSign, BitVec.toNat_cast, BitVec.extractLsb_toNat, Nat.shiftRight_eq_div_pow]
    rfl
  rcases Nat.mod_two_eq_zero_or_one (b.toNat / 2 ^ 63) with h | h
  · have hzero : unpackSign b = 0#1 := BitVec.toNat_inj.1 (hsign.trans h)
    rw [hzero, h]
    rfl
  · have hone : unpackSign b = 1#1 := BitVec.toNat_inj.1 (hsign.trans h)
    rw [hone, h]
    rfl

theorem unpack_bits (b : BitVec Format.binary64.numBits) :
    UnpackedFloat.unpack Format.binary64 b = (Binary.ofBits b.toNat).unpacked := by
  have hmantissa := toNat_unpackMantissa b
  have hexponent := toNat_unpackExponent b
  have hall : unpackExponent b = -1#11 ↔
      b.toNat / Nat.pow 2 52 % Nat.pow 2 11 = 2047 := by
    rw [← BitVec.toNat_inj, hexponent]
    rfl
  have hnone : unpackExponent b = 0#11 ↔
      b.toNat / Nat.pow 2 52 % Nat.pow 2 11 = 0 := by
    rw [← BitVec.toNat_inj, hexponent]
    rfl
  have hzero : unpackMantissa b = 0#52 ↔
      b.toNat % Nat.pow 2 52 = 0 := by
    rw [← BitVec.toNat_inj, hmantissa]
    rfl
  have hbias : (Format.binary64.exponentBias : ℤ) = 1023 := rfl
  simp only [UnpackedFloat.unpack, Binary.ofBits, ofBitVec_unpackSign, hall, hnone, beq_iff_eq,
    hexponent, hbias]
  split
  · by_cases h : b.toNat % Nat.pow 2 52 = 0
    · rw [if_pos (hzero.2 h), if_pos h]
      rfl
    · rw [if_neg (mt hzero.1 h), if_neg h]
      rfl
  split
  · rename_i hleast
    by_cases h : b.toNat % Nat.pow 2 52 = 0
    · rw [dif_pos (hzero.2 h)]
      exact zero_eq_signed h
    · rw [dif_neg (mt hzero.1 h)]
      have hleast : b.toNat / 2 ^ 52 % 2 ^ 11 = 0 := hleast
      exact finite_eq_signed _ hmantissa (by omega)
  · have hexponent_eq : ((b.toNat / 2 ^ 52 % 2 ^ 11 : ℕ) : ℤ) - (1023 + (52 : ℕ)) =
        ((b.toNat / 2 ^ 52 % 2 ^ 11 : ℕ) : ℤ) - 1075 := by omega
    refine finite_eq_signed _ ?_ hexponent_eq
    rw [BitVec.toNat_append, ← Nat.shiftLeft_add_eq_or_of_lt (BitVec.isLt _), hmantissa]
    rfl

/-- **The parts of a double** are what it is in the model. -/
theorem unpack_eq (x : Float) : x.toModel.unpack = (Binary.ofFloat x).unpacked :=
  unpack_bits x.toModel.toBits.toBitVec

theorem unpack_finite (hx : Binary.ofFloat x = .finite negative m e) (hm : 0 < m) :
    x.toModel.unpack = .finite (signOf negative) m e hm := by
  rw [unpack_eq, hx]
  exact (finite_eq_signed hm rfl rfl).symm

/-- The parts of a double with the other sign. -/
def Binary.negate : Binary → Binary
  | .nan => .nan
  | .infinite negative => .infinite !negative
  | .finite negative m e => .finite (!negative) m e

theorem ofBits_canonical (h : Binary.ofBits b = .finite negative m e) :
    Canonical m e ∧ e ≤ 971 := by
  have hfraction : b % 2 ^ 52 < 2 ^ 52 := Nat.mod_lt _ (by decide)
  have hexponent : b / 2 ^ 52 % 2 ^ 11 < 2 ^ 11 := Nat.mod_lt _ (by decide)
  have hpow (n : ℕ) : Nat.pow 2 n = 2 ^ n := rfl
  simp only [Binary.ofBits, beq_iff_eq, hpow] at h
  split at h
  · split at h <;> simp at h
  split at h <;> simp only [Binary.finite.injEq] at h <;> obtain ⟨-, rfl, rfl⟩ := h
  · exact ⟨⟨by omega, le_rfl, .inr rfl⟩, by decide⟩
  · exact ⟨⟨by omega, by omega, .inl (by omega)⟩, by omega⟩

theorem signOf_neg (negative : Bool) : -signOf negative = signOf !negative := by
  cases negative <;> rfl

/-- **The other sign** changes nothing else. -/
theorem ofFloat_neg (x : Float) : Binary.ofFloat (-x) = (Binary.ofFloat x).negate := by
  have hneg : -x = .ofModel (.pack x.toModel.unpack.neg) := rfl
  rw [hneg, unpack_eq]
  cases hx : Binary.ofFloat x with
  | nan => rfl
  | infinite negative =>
    rw [Binary.unpacked, UnpackedFloat.neg, signOf_neg]
    exact ofFloat_packedInfinity _
  | finite negative m e =>
    obtain ⟨hc, he⟩ := ofBits_canonical hx
    have hsigned : (signed (signOf negative) m e).neg = signed (signOf !negative) m e := by
      unfold signed
      split <;> rw [UnpackedFloat.neg, signOf_neg]
    rw [Binary.unpacked, hsigned, ofFloat_signed _ hc, if_pos he]
    rfl

/-- The bits of a double with the given parts; there is one that is not a number. -/
def Binary.bits : Binary → ℕ
  | .nan => 2047 * 2 ^ 52 + 2 ^ 51
  | .infinite negative => negative.toNat * 2 ^ 63 + 2047 * 2 ^ 52
  | .finite negative m e => negative.toNat * 2 ^ 63 + exponentField m e * 2 ^ 52 + m % 2 ^ 52

theorem bits_ofBits (hb : b < 2 ^ 64) (hnan : Binary.ofBits b = .nan → b = Binary.nan.bits) :
    (Binary.ofBits b).bits = b := by
  have hpow (n : ℕ) : Nat.pow 2 n = 2 ^ n := rfl
  have hsign : (b / 2 ^ 63 % 2 == 1).toNat = b / 2 ^ 63 := by
    rcases (by omega : b / 2 ^ 63 = 0 ∨ b / 2 ^ 63 = 1) with h | h <;> rw [h] <;> rfl
  simp only [Binary.ofBits, beq_iff_eq, hpow] at hnan ⊢
  split
  · rename_i hexponent
    split
    · rw [Binary.bits, hsign]
      omega
    · rename_i hfraction
      rw [if_pos hexponent, if_neg hfraction] at hnan
      exact (hnan rfl).symm
  split <;> rw [Binary.bits, hsign, exponentField]
  · rw [if_pos (Nat.mod_lt _ (by decide))]
    omega
  · rw [if_neg (by omega)]
    omega

theorem ofBits_eq_nan_iff : Binary.ofBits b = .nan ↔
    b / 2 ^ 52 % 2 ^ 11 = 2047 ∧ b % 2 ^ 52 ≠ 0 := by
  have hpow (n : ℕ) : Nat.pow 2 n = 2 ^ n := rfl
  simp only [Binary.ofBits, beq_iff_eq, hpow]
  split
  · rename_i h
    split <;> simp_all
  · rename_i h
    split <;> simp_all

/-- Only one double is not a number. -/
theorem toBits_of_nan (h : Binary.ofFloat x = .nan) : x.toBits.toNat = Binary.nan.bits := by
  obtain ⟨hexponent, hfraction⟩ := ofBits_eq_nan_iff.1 h
  have hvalid := x.toModel.valid.eq_packedNaN
    (BitVec.toNat_inj.1 ((toNat_unpackExponent _).trans hexponent))
    (fun hzero => hfraction ((toNat_unpackMantissa _).symm.trans (congrArg BitVec.toNat hzero)))
  exact congrArg BitVec.toNat hvalid

theorem toBits_eq (x : Float) : (Binary.ofFloat x).bits = x.toBits.toNat :=
  bits_ofBits x.toBits.toNat_lt toBits_of_nan

/-- **A double is known by its parts.** -/
theorem ofFloat_injective : Function.Injective Binary.ofFloat := by
  intro x y h
  have hbits : x.toBits.toNat = y.toBits.toNat := by rw [← toBits_eq, ← toBits_eq, h]
  have hmodel : x.toModel.toBits = y.toModel.toBits := UInt64.toNat_inj.1 hbits
  obtain ⟨⟨bits, hx⟩⟩ := x
  obtain ⟨⟨bits', hy⟩⟩ := y
  obtain rfl : bits = bits' := hmodel
  rfl

/-- A double is finite if it has a significand and an exponent. -/
theorem isFinite_iff (x : Float) :
    x.isFinite = true ↔ ∃ negative m e, Binary.ofFloat x = .finite negative m e := by
  have hfinite : x.isFinite = x.toModel.unpack.isFinite := rfl
  rw [hfinite, unpack_eq]
  cases Binary.ofFloat x with
  | nan => simp [Binary.unpacked, UnpackedFloat.isFinite]
  | infinite negative => simp [Binary.unpacked, UnpackedFloat.isFinite]
  | finite negative m e =>
    refine iff_of_true ?_ ⟨negative, m, e, rfl⟩
    rw [Binary.unpacked, signed]
    split <;> rfl

theorem isInf_iff (x : Float) :
    x.isInf = true ↔ ∃ negative, Binary.ofFloat x = .infinite negative := by
  have hinf : x.isInf = x.toModel.unpack.isInf := rfl
  rw [hinf, unpack_eq]
  cases Binary.ofFloat x with
  | nan => simp [Binary.unpacked, UnpackedFloat.isInf]
  | infinite negative => exact iff_of_true rfl ⟨negative, rfl⟩
  | finite negative m e =>
    refine iff_of_false ?_ (by simp)
    rw [Binary.unpacked, signed]
    split <;> exact Bool.false_ne_true

end Schematic.Decimal
