import Mathlib

/-!
# Rounding to doubles

The model of doubles rounds a number that is cut off behind some binary place: what follows the
place is kept in two bits, and shifting the number goes on doing so. Here it is said by the exact
number alone which double that comes to. It is the nearest multiple of the last place that doubles
of this size have, the even one in the middle.

* `IsNearest`: the nearest natural number.
* `Shows`: a number that is cut off, with two bits for the rest of it.
* `place`: the last place that doubles of a size have.
* `Rounds`: the significand and the exponent that a number is rounded to.
* `Rounds.le_iff`: from which number on the exponent is too large.
* `roundWithAccuracy_rounds`: rounding in the model is this rounding.
-/

namespace Schematic.Rounding

open Float.Model Float.Model.UnpackedFloat

/-! ### The nearest natural number -/

/-- **The natural number nearest to a number**, the even one in the middle. -/
structure IsNearest (x : ℚ) (n : ℕ) : Prop where
  near : |x - n| ≤ 1 / 2
  even : |x - n| = 1 / 2 → Even n

variable {x q : ℚ} {m n : ℕ} {e : ℤ} {acc : Accuracy} {em : ExtendedMantissa}

theorem IsNearest.le (hm : IsNearest x m) (hn : IsNearest x n) : m ≤ n := by
  by_contra hlt
  have hlt : (n : ℚ) + 1 ≤ m := by exact_mod_cast Nat.lt_of_not_le hlt
  have hlow := (abs_le.1 hm.near).1
  have hhigh := (abs_le.1 hn.near).2
  -- then they are neighbours, and the number lies in the middle
  have hx : x = n + 1 / 2 := by linarith
  have hmn : (m : ℚ) = n + 1 := by linarith
  have hmn' : m = n + 1 := by exact_mod_cast hmn
  have heven : Even n := hn.even (by rw [hx]; norm_num)
  have heven' : Even m := hm.even (by rw [hx, hmn]; norm_num [abs_div])
  rw [hmn', Nat.even_add_one] at heven'
  exact heven' heven

theorem IsNearest.unique (hm : IsNearest x m) (hn : IsNearest x n) : m = n :=
  le_antisymm (hm.le hn) (hn.le hm)

/-- A natural number is the nearest one to itself. -/
theorem isNearest_natCast (n : ℕ) : IsNearest n n := by
  refine ⟨by simp, fun h => ?_⟩
  rw [sub_self, abs_zero] at h
  norm_num at h

/-! ### Numbers that are cut off -/

/-- What is said of the part of a number that is cut off. -/
def Fits (f : ℚ) : Accuracy → Prop
  | .exact => f = 0
  | .inexact .lt => 0 < f ∧ f < 1 / 2
  | .inexact .eq => f = 1 / 2
  | .inexact .gt => 1 / 2 < f ∧ f < 1

theorem Fits.bounds {f : ℚ} (h : Fits f acc) : 0 ≤ f ∧ f < 1 := by
  unfold Fits at h
  split at h
  · rw [h]; norm_num
  · exact ⟨h.1.le, by linarith⟩
  · rw [h]; norm_num
  · exact ⟨by linarith, h.2⟩

/-- **A number that is cut off**: its natural part, and two bits for the rest. -/
def Shows (em : ExtendedMantissa) (x : ℚ) : Prop := Fits (x - em.mantissa) em.accuracy

theorem shows_ofMantissaAndAccuracy (h : Fits (x - m) acc) :
    Shows (.ofMantissaAndAccuracy m acc) x := by
  match acc with
  | .exact => exact h
  | .inexact .lt => exact h
  | .inexact .eq => exact h
  | .inexact .gt => exact h

/-- Rounding the natural part by the two bits gives the nearest number. -/
theorem Shows.isNearest (h : Shows em x) : IsNearest x em.roundedMantissa := by
  obtain ⟨m, round, sticky⟩ := em
  unfold Shows at h
  match round, sticky with
  | false, false =>
    have hx : x = m := sub_eq_zero.1 h
    rw [hx]
    exact isNearest_natCast m
  | false, true =>
    have hf : 0 < x - m ∧ x - m < 1 / 2 := h
    have habs : |x - m| = x - m := abs_of_pos hf.1
    exact ⟨by change |x - m| ≤ _; rw [habs]; exact hf.2.le,
      fun heq => absurd (habs.symm.trans heq) hf.2.ne⟩
  | true, false =>
    have hf : x - m = 1 / 2 := h
    rcases Nat.mod_two_eq_zero_or_one m with hm | hm
    · have hround : ExtendedMantissa.roundedMantissa ⟨m, true, false⟩ = m + m % 2 := rfl
      rw [hround, hm, add_zero]
      exact ⟨by rw [hf]; norm_num, fun _ => Nat.even_iff.2 hm⟩
    · have hround : ExtendedMantissa.roundedMantissa ⟨m, true, false⟩ = m + m % 2 := rfl
      have hdist : x - ((m + 1 : ℕ) : ℚ) = -(1 / 2) := by push_cast; linarith
      rw [hround, hm]
      refine ⟨by rw [hdist]; norm_num [abs_div], fun _ => ?_⟩
      rw [Nat.even_add_one, Nat.not_even_iff]
      exact hm
  | true, true =>
    have hf : 1 / 2 < x - m ∧ x - m < 1 := h
    have hround : ExtendedMantissa.roundedMantissa ⟨m, true, true⟩ = m + 1 := rfl
    have habs : |x - ((m + 1 : ℕ) : ℚ)| = 1 - (x - m) := by
      push_cast
      rw [abs_of_neg (by linarith)]
      ring
    rw [hround]
    exact ⟨by rw [habs]; linarith, fun heq => by rw [habs] at heq; linarith⟩

/-- Both bits are off if nothing was cut off. -/
theorem Shows.bits (h : Shows em x) : (em.roundBit || em.stickyBit) = false ↔ x = em.mantissa := by
  obtain ⟨m, round, sticky⟩ := em
  unfold Shows at h
  match round, sticky with
  | false, false => exact iff_of_true rfl (sub_eq_zero.1 h)
  | false, true =>
    have hf : 0 < x - m ∧ x - m < 1 / 2 := h
    exact iff_of_false nofun (sub_pos.1 hf.1).ne'
  | true, false =>
    have hf : x - m = 1 / 2 := h
    exact iff_of_false nofun fun hx => by norm_num [hx] at hf
  | true, true =>
    have hf : 1 / 2 < x - m ∧ x - m < 1 := h
    exact iff_of_false nofun fun hx => by norm_num [hx] at hf

/-- A shift by one place halves the number. -/
theorem Shows.shiftRightOne (h : Shows em x) : Shows em.shiftRightOne (x / 2) := by
  have hbits := h.bits
  have hbounds := h.bounds
  obtain ⟨m, round, sticky⟩ := em
  simp only at hbits hbounds
  have hparts : (m : ℚ) = 2 * ((m / 2 : ℕ) : ℚ) + ((m % 2 : ℕ) : ℚ) := by
    exact_mod_cast (Nat.div_add_mod m 2).symm
  -- the last digit becomes the first bit, and anything behind it the second one
  change Fits (x / 2 - (m / 2 : ℕ)) (ExtendedMantissa.accuracy ⟨m / 2, m % 2 != 0, round || sticky⟩)
  rcases Nat.mod_two_eq_zero_or_one m with hm | hm <;> rw [hm] at hparts ⊢ <;>
    cases hrest : (round || sticky) <;> push_cast at hparts
  · have hx := hbits.1 hrest
    change x / 2 - (m / 2 : ℕ) = 0
    linarith
  · have hx : x ≠ m := fun hx => by simp [hbits.2 hx] at hrest
    have hpos := lt_of_le_of_ne hbounds.1 (sub_ne_zero.2 hx).symm
    change 0 < x / 2 - (m / 2 : ℕ) ∧ x / 2 - (m / 2 : ℕ) < 1 / 2
    constructor <;> linarith
  · have hx := hbits.1 hrest
    change x / 2 - (m / 2 : ℕ) = 1 / 2
    linarith
  · have hx : x ≠ m := fun hx => by simp [hbits.2 hx] at hrest
    have hpos := lt_of_le_of_ne hbounds.1 (sub_ne_zero.2 hx).symm
    change 1 / 2 < x / 2 - (m / 2 : ℕ) ∧ x / 2 - (m / 2 : ℕ) < 1
    constructor <;> linarith

/-- A shift by some places divides the number by their power of two. -/
theorem Shows.shiftRight (h : Shows em x) (n : ℕ) : Shows (em >>> n) (x / 2 ^ n) := by
  induction n with
  | zero =>
    rw [pow_zero, div_one]
    exact h
  | succ n ih =>
    have hstep : em >>> (n + 1) = (em >>> n).shiftRightOne := rfl
    rw [hstep, pow_succ, ← div_div]
    exact ih.shiftRightOne

/-! ### The last place -/

/-- The exponent of the last place that doubles of a size have. -/
def place (q : ℚ) : ℤ := max (Int.log 2 q - 52) (-1074)

/-- What is below the next power of two has 53 places at most. -/
theorem lt_place (q : ℚ) : q < 2 ^ 53 * 2 ^ place q := by
  have hlog := Int.lt_zpow_succ_log_self (R := ℚ) (b := 2) (by decide) q
  have hle : Int.log 2 q + 1 ≤ 53 + place q := by unfold place; omega
  calc q < ((2 : ℕ) : ℚ) ^ (Int.log 2 q + 1) := hlog
    _ ≤ 2 ^ (53 + place q) := by
      push_cast
      exact zpow_le_zpow_right₀ (by norm_num) hle
    _ = 2 ^ 53 * 2 ^ place q := by rw [zpow_add₀ (by norm_num)]; norm_num

/-- Unless it is the least place, there are 53 places. -/
theorem place_le (hq : 0 < q) : place q = -1074 ∨ 2 ^ 52 * 2 ^ place q ≤ q := by
  rcases le_or_gt (Int.log 2 q - 52) (-1074) with hlow | hlow
  · exact .inl (max_eq_right hlow)
  · right
    have hplace : place q = Int.log 2 q - 52 := max_eq_left hlow.le
    have hlog := Int.zpow_log_le_self (R := ℚ) (b := 2) (by decide) hq
    calc (2 : ℚ) ^ 52 * 2 ^ place q = 2 ^ (52 + place q) := by
          rw [zpow_add₀ (by norm_num)]; norm_num
      _ = ((2 : ℕ) : ℚ) ^ Int.log 2 q := by rw [hplace]; norm_num
      _ ≤ q := hlog

/-- The place is known by its bounds. -/
theorem place_eq (hq : 0 < q) (he : -1074 ≤ e) (hhigh : q < 2 ^ 53 * 2 ^ e)
    (hlow : e = -1074 ∨ 2 ^ 52 * 2 ^ e ≤ q) : place q = e := by
  have hlt : Int.log 2 q < 53 + e := by
    rw [← Int.lt_zpow_iff_log_lt (by decide) hq, zpow_add₀ (by norm_num)]
    simpa using hhigh
  rcases hlow with rfl | hlow
  · unfold place
    omega
  · have hle : 52 + e ≤ Int.log 2 q := by
      rw [← Int.zpow_le_iff_le_log (by decide) hq, zpow_add₀ (by norm_num)]
      simpa using hlow
    unfold place
    omega

/-- **Rounding a number to a double**: the nearest multiple of the last place. Where it has a
digit too many, it is a power of two, and the place is the next one. -/
inductive Rounds (q : ℚ) : ℕ → ℤ → Prop
  | keep {n : ℕ} (hn : IsNearest (q / 2 ^ place q) n) (hlt : n < 2 ^ 53) : Rounds q n (place q)
  | carry (hn : IsNearest (q / 2 ^ place q) (2 ^ 53)) : Rounds q (2 ^ 52) (place q + 1)

theorem Rounds.unique {m' : ℕ} {e' : ℤ} (h : Rounds q m e) (h' : Rounds q m' e') :
    m = m' ∧ e = e' := by
  cases h with
  | keep hn hlt =>
    cases h' with
    | keep hn' _ => exact ⟨hn.unique hn', rfl⟩
    | carry hn' => exact absurd (hn.unique hn') hlt.ne
  | carry hn =>
    cases h' with
    | keep hn' hlt' => exact absurd (hn'.unique hn) hlt'.ne
    | carry _ => exact ⟨rfl, rfl⟩

/-- The exponent and the significand of what a number is rounded to. -/
structure Canonical (m : ℕ) (e : ℤ) : Prop where
  significand : m < 2 ^ 53
  least : -1074 ≤ e
  normal : 2 ^ 52 ≤ m ∨ e = -1074

/-- The nearest number of units of the last place has one digit too many at most. -/
theorem IsNearest.le_of_place (hn : IsNearest (q / 2 ^ place q) n) : n ≤ 2 ^ 53 := by
  have hpos : (0 : ℚ) < 2 ^ place q := by positivity
  have hlt : q / 2 ^ place q < 2 ^ 53 := (div_lt_iff₀ hpos).2 (lt_place q)
  by_contra hle
  have hle : (2 : ℚ) ^ 53 + 1 ≤ n := by exact_mod_cast Nat.lt_of_not_le hle
  have hnear := (abs_le.1 hn.near).1
  linarith

theorem IsNearest.place_normal (hq : 0 < q) (hn : IsNearest (q / 2 ^ place q) n) :
    2 ^ 52 ≤ n ∨ place q = -1074 := by
  have hpos : (0 : ℚ) < 2 ^ place q := by positivity
  refine (place_le hq).symm.imp_left fun hle => ?_
  have hle : 2 ^ 52 ≤ q / 2 ^ place q := (le_div_iff₀ hpos).2 hle
  by_contra hlt
  have hlt : (n : ℚ) + 1 ≤ 2 ^ 52 := by exact_mod_cast Nat.lt_of_not_le hlt
  have hnear := (abs_le.1 hn.near).2
  linarith

theorem Rounds.canonical (hq : 0 < q) (h : Rounds q m e) : Canonical m e := by
  have hleast : -1074 ≤ place q := le_max_right _ _
  cases h with
  | keep hn hlt => exact ⟨hlt, hleast, hn.place_normal hq⟩
  | carry _ => exact ⟨by norm_num, by omega, .inl le_rfl⟩

/-- The least number that is too large for a double: half way from the greatest double to the
power of two that would follow. -/
def limit : ℚ := (2 ^ 54 - 1) * 2 ^ (970 : ℤ)

theorem limit_pos : 0 < limit := by
  have hpos : (0 : ℚ) < 2 ^ (970 : ℤ) := by positivity
  exact mul_pos (by norm_num) hpos

theorem IsNearest.lt_limit (hn : IsNearest (q / 2 ^ (971 : ℤ)) n) : n < 2 ^ 53 ↔ q < limit := by
  have hpow : (2 : ℚ) ^ (971 : ℤ) = 2 * 2 ^ (970 : ℤ) := by
    rw [← zpow_one_add₀ (by norm_num)]
    rfl
  have hlimit : q < limit ↔ q / 2 ^ (971 : ℤ) < 2 ^ 53 - 1 / 2 := by
    rw [div_lt_iff₀ (by positivity), limit, hpow]
    constructor <;> intro h <;> linarith
  rw [hlimit]
  constructor
  · intro hlt
    have hle : (n : ℚ) + 1 ≤ 2 ^ 53 := by exact_mod_cast hlt
    have hnear := (abs_le.1 hn.near).2
    refine lt_of_le_of_ne (by linarith) fun heq => ?_
    -- half way up from an odd number, which is not the nearest one
    have hmax : (n : ℚ) = (2 ^ 53 - 1 : ℕ) := by push_cast; linarith
    have hmax : n = 2 ^ 53 - 1 := by exact_mod_cast hmax
    have heven := hn.even (by rw [heq, hmax]; norm_num [abs_of_pos])
    rw [hmax] at heven
    exact absurd heven (by decide)
  · intro hlt
    by_contra hge
    have hge : (2 : ℚ) ^ 53 ≤ n := by exact_mod_cast not_lt.1 hge
    have hnear := (abs_le.1 hn.near).1
    linarith

/-- **The greatest exponent** is passed by the numbers from the limit on, and by no other. -/
theorem Rounds.le_iff (hq : 0 < q) (h : Rounds q m e) : e ≤ 971 ↔ q < limit := by
  have hpos : (0 : ℚ) < 2 ^ (970 : ℤ) := by positivity
  rcases lt_trichotomy (place q) 971 with hplace | hplace | hplace
  · have hle : (2 : ℚ) ^ place q ≤ 2 ^ (970 : ℤ) :=
      zpow_le_zpow_right₀ (by norm_num) (by omega)
    have hlt := lt_place q
    refine iff_of_true (by cases h <;> omega) ?_
    unfold limit
    generalize (2 : ℚ) ^ place q = a at hle hlt
    generalize (2 : ℚ) ^ (970 : ℤ) = b at hpos hle ⊢
    linarith
  · cases h with
    | keep hn hlt =>
      rw [hplace] at hn ⊢
      exact iff_of_true le_rfl (hn.lt_limit.1 hlt)
    | carry hn =>
      rw [hplace] at hn ⊢
      exact iff_of_false (by decide) fun hlt => absurd (hn.lt_limit.2 hlt) (lt_irrefl _)
  · have hle : (2 : ℚ) ^ (972 : ℤ) ≤ 2 ^ place q :=
      zpow_le_zpow_right₀ (by norm_num) (by omega)
    have hpow : (2 : ℚ) ^ (972 : ℤ) = 4 * 2 ^ (970 : ℤ) := by
      rw [show (4 : ℚ) = 2 ^ (2 : ℤ) by norm_num, ← zpow_add₀ (by norm_num)]
      rfl
    have hge := (place_le hq).resolve_left (by omega)
    refine iff_of_false (by cases h <;> omega) (not_lt.2 ?_)
    unfold limit
    rw [hpow] at hle
    generalize (2 : ℚ) ^ place q = a at hle hge
    generalize (2 : ℚ) ^ (970 : ℤ) = b at hpos hle ⊢
    linarith

/-! ### Rounding in the model -/

theorem targetExponent_binary64 (t : ℤ) :
    Format.binary64.targetExponent t = max (t - 53) (-1074) := rfl

/-- A shift up to an exponent. -/
theorem shiftToExponent_shows {t : ℤ} (h : Fits (q / 2 ^ e - m) acc) (het : e ≤ t) :
    Shows (shiftToExponent m e acc t).1 (q / 2 ^ t) ∧ (shiftToExponent m e acc t).2 = t := by
  have hshift : ((t - e).toNat : ℤ) = t - e := Int.toNat_of_nonneg (by omega)
  have hshows := (shows_ofMantissaAndAccuracy h).shiftRight (t - e).toNat
  have hexp : (2 : ℚ) ^ t = 2 ^ e * 2 ^ (t - e).toNat := by
    rw [← zpow_natCast, hshift, ← zpow_add₀ (by norm_num)]
    congr 1
    ring
  rw [div_div, ← hexp] at hshows
  exact ⟨hshows, by change e + ((t - e).toNat : ℤ) = t; omega⟩

/-- The place of a number that is cut off is found by its natural part. -/
theorem targetExponent_eq_place (hq : 0 < q) (h : Fits (q / 2 ^ e - m) acc)
    (he : m = 0 → e ≤ place q) :
    Format.binary64.targetExponent (totalExponent m e) = place q := by
  have hpos : (0 : ℚ) < 2 ^ e := by positivity
  have hlow : m * 2 ^ e ≤ q := (le_div_iff₀ hpos).1 (sub_nonneg.1 h.bounds.1)
  have hhigh : q < (m + 1) * 2 ^ e := (div_lt_iff₀ hpos).1 (by linarith [h.bounds.2])
  rw [targetExponent_binary64, totalExponent]
  rcases Nat.eq_zero_or_pos m with rfl | hm
  · have hlog : Int.log 2 q < e := by
      rw [← Int.lt_zpow_iff_log_lt (by decide) hq]
      simpa using hhigh
    have hzero : Nat.log2 0 = 0 := rfl
    have he := he rfl
    unfold place at he ⊢
    omega
  · have hlog : Int.log 2 q = m.log2 + e := by
      have hself : 2 ^ m.log2 ≤ m := Nat.log2_self_le hm.ne'
      have hlt : m + 1 ≤ 2 ^ (m.log2 + 1) := Nat.lt_log2_self
      refine le_antisymm (Int.lt_add_one_iff.1 ?_) ?_
      · rw [← Int.lt_zpow_iff_log_lt (by decide) hq]
        calc q < (m + 1) * 2 ^ e := hhigh
          _ ≤ 2 ^ (m.log2 + 1) * 2 ^ e := by
            gcongr
            exact_mod_cast hlt
          _ = ((2 : ℕ) : ℚ) ^ ((m.log2 : ℤ) + e + 1) := by
            push_cast
            rw [← zpow_natCast, ← zpow_add₀ (by norm_num)]
            congr 1
            push_cast
            ring
      · rw [← Int.zpow_le_iff_le_log (by decide) hq]
        calc ((2 : ℕ) : ℚ) ^ ((m.log2 : ℤ) + e) = 2 ^ m.log2 * 2 ^ e := by
              push_cast
              rw [zpow_add₀ (by norm_num), zpow_natCast]
          _ ≤ m * 2 ^ e := by
            gcongr
            exact_mod_cast hself
          _ ≤ q := hlow
    unfold place
    omega

/-- A number of the model that is finite. -/
def signed (s : Sign) (m : ℕ) (e : ℤ) : UnpackedFloat :=
  if h : m = 0 then .zero s else .finite s m e (Nat.pos_of_ne_zero h)

theorem zero_eq_signed {s : Sign} (hm : m = 0) : UnpackedFloat.zero s = signed s m e := by
  rw [signed, dif_pos hm]

theorem finite_eq_signed {s : Sign} {m' : ℕ} {e' : ℤ} (h : 0 < m) (hm : m = m') (he : e = e') :
    UnpackedFloat.finite s m e h = signed s m' e' := by
  subst hm he
  rw [signed, dif_neg h.ne']

/-- Without a digit too many nothing is shifted out. -/
theorem shiftToTargetExponent_keep (hn : n < 2 ^ 53) (he : -1074 ≤ e) :
    shiftToTargetExponent Format.binary64 n e .exact = (⟨n, false, false⟩, e) := by
  have hlog : n.log2 ≤ 52 := by
    rcases Nat.eq_zero_or_pos n with rfl | hpos
    · decide
    · exact Nat.lt_succ_iff.1 ((Nat.log2_lt hpos.ne').2 hn)
  have hstay : (max ((n.log2 : ℤ) + 1 + e - 53) (-1074) - e).toNat = 0 := by omega
  simp only [shiftToTargetExponent, shiftToExponent, targetExponent_binary64, totalExponent, hstay]
  exact Prod.ext rfl (add_zero e)

theorem shiftToTargetExponent_carry (he : -1074 ≤ e) :
    shiftToTargetExponent Format.binary64 (2 ^ 53) e .exact = (⟨2 ^ 52, false, false⟩, e + 1) := by
  have hlog : (2 ^ 53 : ℕ).log2 = 53 := Nat.log2_two_pow
  have hstep : (max (((2 ^ 53 : ℕ).log2 : ℤ) + 1 + e - 53) (-1074) - e).toNat = 1 := by
    rw [hlog]
    omega
  simp only [shiftToTargetExponent, shiftToExponent, targetExponent_binary64, totalExponent, hstep]
  rfl

/-- **Rounding in the model** is rounding to a double. -/
theorem roundWithAccuracy_rounds (s : Sign) (hq : 0 < q) (h : Fits (q / 2 ^ e - m) acc)
    (he : e ≤ place q) :
    ∃ m' e', Rounds q m' e' ∧ roundWithAccuracy Format.binary64 s m e acc = signed s m' e' := by
  obtain ⟨hshows, hexp⟩ := shiftToExponent_shows h he
  have hfirst : shiftToTargetExponent Format.binary64 m e acc = shiftToExponent m e acc (place q) :=
    congrArg (shiftToExponent m e acc) (targetExponent_eq_place hq h fun _ => he)
  have hnear := hshows.isNearest
  have hleast : -1074 ≤ place q := le_max_right _ _
  unfold roundWithAccuracy
  rw [hfirst]
  simp only [hexp]
  generalize (shiftToExponent m e acc (place q)).1.roundedMantissa = n at hnear
  rcases Nat.lt_or_eq_of_le hnear.le_of_place with hlt | rfl
  · refine ⟨n, place q, .keep hnear hlt, ?_⟩
    simp only [shiftToTargetExponent_keep hlt hleast]
    rfl
  · refine ⟨2 ^ 52, place q + 1, .carry hnear, ?_⟩
    simp only [shiftToTargetExponent_carry hleast]
    rfl

end Schematic.Rounding
