import Mathlib
import Schematic.Proofs.FixedPoint
import Schematic.Proofs.Literals
import Schematic.Proofs.Packing

/-!
# The digits of doubles

The shortest decimal of a double is looked for in an interval around it, with more and more digits.
All decimals of the interval are rounded to the double. One of them is always found, since the
interval reaches up by half of the last place of the double, and the eighteenth digit counts less
than that. Written out with all its places, it is a literal of the same size.

* `Interval.contains_iff`: the decimals of an interval, as exact numbers.
* `rounds_of_contains`: they are rounded to the double.
* `Interval.search_contains`: a search that ends within its fuel ends in the interval.
* `shortest_contains`: the search for the digits of a double does.
* `exists_positional`: a decimal with all its places as a literal.
-/

namespace Schematic.Decimal

open Rounding

variable {m d : ℕ} {e p : ℤ} {q : ℚ}

/-! ### Intervals -/

/-- How far the interval around a double reaches below it, in units of its last place. -/
def reach (m : ℕ) (e : ℤ) : ℚ := if m = 2 ^ 52 ∧ e ≠ -1074 then 1 / 4 else 1 / 2

theorem reach_le (m : ℕ) (e : ℤ) : reach m e ≤ 1 / 2 := by
  unfold reach
  split <;> norm_num

namespace Interval

theorem around_unit_pos (m : ℕ) (e : ℤ) : (0 : ℚ) < (around m e).unit := by
  change (0 : ℚ) < ((2 ^ (2 - e).toNat : ℕ) : ℚ)
  positivity

/-- A quarter of the last place, in units. -/
theorem quarter (e : ℤ) : ((2 ^ (e - 2).toNat : ℕ) : ℚ) / (2 ^ (2 - e).toNat : ℕ) = 2 ^ e / 4 := by
  rw [div_eq_iff (by positivity)]
  push_cast
  rw [← zpow_natCast, ← zpow_natCast]
  have hsum : ((e - 2).toNat : ℤ) = e - 2 + (2 - e).toNat := by omega
  rw [hsum, zpow_add₀ (by norm_num), zpow_sub₀ (by norm_num)]
  norm_num

theorem around_value (m : ℕ) (e : ℤ) :
    ((around m e).value : ℚ) / (around m e).unit = m * 2 ^ e := by
  have hvalue : (around m e).value = 4 * m * 2 ^ (e - 2).toNat := rfl
  have hunit : (around m e).unit = 2 ^ (2 - e).toNat := rfl
  rw [hvalue, hunit, Nat.cast_mul, mul_div_assoc, quarter]
  push_cast
  ring

theorem around_high (m : ℕ) (e : ℤ) :
    ((around m e).high : ℚ) / (around m e).unit = (m + 1 / 2) * 2 ^ e := by
  have hhigh : (around m e).high = (4 * m + 2) * 2 ^ (e - 2).toNat := rfl
  have hunit : (around m e).unit = 2 ^ (2 - e).toNat := rfl
  rw [hhigh, hunit, Nat.cast_mul, mul_div_assoc, quarter]
  push_cast
  ring

theorem around_low (hm : 0 < m) (e : ℤ) :
    ((around m e).low : ℚ) / (around m e).unit = (m - reach m e) * 2 ^ e := by
  have hlow : (around m e).low =
      (4 * m - if m == Nat.pow 2 52 && e != -1074 then 1 else 2) * 2 ^ (e - 2).toNat := rfl
  have hunit : (around m e).unit = 2 ^ (2 - e).toNat := rfl
  have hcond : (m == Nat.pow 2 52 && e != -1074) = true ↔ m = 2 ^ 52 ∧ e ≠ -1074 := by
    simp only [Bool.and_eq_true, beq_iff_eq, bne_iff_ne]
    rfl
  have hle : (if m = 2 ^ 52 ∧ e ≠ -1074 then 1 else 2) ≤ 4 * m := by split <;> omega
  rw [hlow, hunit, Nat.cast_mul, mul_div_assoc, quarter]
  simp only [hcond]
  rw [Nat.cast_sub hle, reach]
  split <;> push_cast <;> ring

/-- Powers of ten with their negative part made up for. -/
theorem ten_zpow_mul (p : ℤ) : (10 : ℚ) ^ p * 10 ^ (-p).toNat = 10 ^ p.toNat := by
  rw [← zpow_natCast, ← zpow_natCast, ← zpow_add₀ (by norm_num)]
  congr 1
  omega

/-- **A decimal in an interval** lies between its ends. -/
theorem contains_iff (i : Interval) (hunit : (0 : ℚ) < i.unit) (d : ℕ) (p : ℤ) :
    i.contains d p = true ↔ if i.closed then
        (i.low : ℚ) / i.unit ≤ d * 10 ^ p ∧ (d : ℚ) * 10 ^ p ≤ i.high / i.unit
      else (i.low : ℚ) / i.unit < d * 10 ^ p ∧ (d : ℚ) * 10 ^ p < i.high / i.unit := by
  have hscale : (0 : ℚ) < ((10 ^ (-p).toNat : ℕ) : ℚ) := by positivity
  have hpoint : ((d * 10 ^ p.toNat * i.unit : ℕ) : ℚ) =
      d * 10 ^ p * i.unit * (10 ^ (-p).toNat : ℕ) := by
    push_cast
    rw [← ten_zpow_mul p]
    ring
  have hle (n : ℕ) : n * 10 ^ (-p).toNat ≤ d * 10 ^ p.toNat * i.unit ↔
      (n : ℚ) / i.unit ≤ d * 10 ^ p := by
    rw [← Nat.cast_le (α := ℚ), hpoint, Nat.cast_mul, mul_le_mul_iff_left₀ hscale,
      div_le_iff₀ hunit]
  have hge (n : ℕ) : d * 10 ^ p.toNat * i.unit ≤ n * 10 ^ (-p).toNat ↔
      (d : ℚ) * 10 ^ p ≤ n / i.unit := by
    rw [← Nat.cast_le (α := ℚ), hpoint, Nat.cast_mul, mul_le_mul_iff_left₀ hscale,
      le_div_iff₀ hunit]
  have hpow (n : ℕ) : Nat.pow 10 n = 10 ^ n := rfl
  unfold contains
  simp only [hpow]
  split <;> simp only [Bool.and_eq_true, decide_eq_true_eq]
  · rw [hle, hge]
  · rw [← not_le, ← not_le, hle, hge, not_le, not_le]

end Interval

/-- What is nearest to a double within its binade is rounded to it. -/
theorem rounds_of_isNearest (hq : 0 < q) (hc : Canonical m e) (hn : IsNearest (q / 2 ^ e) m)
    (hlow : e = -1074 ∨ 2 ^ 52 * 2 ^ e ≤ q) : Rounds q m e := by
  have hpos : (0 : ℚ) < 2 ^ e := by positivity
  have hmax : (m : ℚ) + 1 ≤ 2 ^ 53 := by exact_mod_cast hc.significand
  have hnear := (abs_le.1 hn.near).2
  have hhigh : q < 2 ^ 53 * 2 ^ e := by
    rw [← div_lt_iff₀ hpos]
    linarith
  have hplace := place_eq hq hc.least hhigh hlow
  rw [← hplace] at hn ⊢
  exact .keep hn hc.significand

/-- What is just below a power of two is rounded up to it. -/
theorem rounds_of_lt_pow (he : -1074 < e) (hlow : (2 ^ 52 - 1 / 4) * 2 ^ e ≤ q)
    (hhigh : q < 2 ^ 52 * 2 ^ e) : Rounds q (2 ^ 52) e := by
  obtain ⟨e, rfl⟩ : ∃ f, e = f + 1 := ⟨e - 1, by ring⟩
  have hpos : (0 : ℚ) < 2 ^ e := by positivity
  rw [zpow_add_one₀ (by norm_num)] at hlow hhigh
  have hq : 0 < q := by linarith
  have hplace : place q = e := place_eq hq (by omega) (by linarith) (.inr (by linarith))
  have hnear : |q / 2 ^ e - ((2 ^ 53 : ℕ) : ℚ)| ≤ 1 / 2 := by
    have h₁ : 2 ^ 53 - 1 / 2 ≤ q / 2 ^ e := by rw [le_div_iff₀ hpos]; linarith
    have h₂ : q / 2 ^ e < 2 ^ 53 := by rw [div_lt_iff₀ hpos]; linarith
    rw [abs_le]
    push_cast
    constructor <;> linarith
  rw [← hplace] at hnear ⊢
  exact .carry ⟨hnear, fun _ => by decide⟩

/-- **The decimals in the interval around a double** are rounded to it. -/
theorem rounds_of_contains (hm : 0 < m) (hc : Canonical m e) (hd : 0 < d)
    (h : (Interval.around m e).contains d p = true) : Rounds (d * 10 ^ p) m e := by
  rw [Interval.contains_iff _ (Interval.around_unit_pos m e), Interval.around_low hm,
    Interval.around_high] at h
  have hd : (0 : ℚ) < d := by exact_mod_cast hd
  have hq : (0 : ℚ) < d * 10 ^ p := by positivity
  generalize (d : ℚ) * 10 ^ p = q at h hq ⊢
  have hpos : (0 : ℚ) < 2 ^ e := by positivity
  have hclosed : (Interval.around m e).closed = true ↔ Even m := by
    rw [Nat.even_iff]
    exact beq_iff_eq
  by_cases hcarry : (m = 2 ^ 52 ∧ e ≠ -1074) ∧ q < 2 ^ 52 * 2 ^ e
  · obtain ⟨⟨rfl, he⟩, hlt⟩ := hcarry
    rw [if_pos (hclosed.2 (by decide)), reach, if_pos ⟨rfl, he⟩] at h
    exact rounds_of_lt_pow (lt_of_le_of_ne hc.least (Ne.symm he)) (by exact_mod_cast h.1) hlt
  · have hreach := reach_le m e
    simp only [← le_div_iff₀ hpos, ← div_le_iff₀ hpos, ← lt_div_iff₀ hpos, ← div_lt_iff₀ hpos] at h
    have hn : IsNearest (q / 2 ^ e) m := by
      split at h
      · rename_i heven
        exact ⟨abs_le.2 (by constructor <;> linarith), fun _ => hclosed.1 heven⟩
      · have hlt : |q / 2 ^ e - m| < 1 / 2 := abs_lt.2 (by constructor <;> linarith)
        exact ⟨hlt.le, fun heq => absurd heq hlt.ne⟩
    refine rounds_of_isNearest hq hc hn ?_
    by_cases he : e = -1074
    · exact .inl he
    right
    rcases Nat.eq_or_lt_of_le (hc.normal.resolve_right he) with hm | hm
    · exact not_lt.1 fun hlt => hcarry ⟨⟨hm.symm, he⟩, hlt⟩
    · have hm : (2 : ℚ) ^ 52 + 1 ≤ m := by exact_mod_cast hm
      have hnear := (abs_le.1 hn.near).1
      rw [← le_div_iff₀ hpos]
      linarith

/-! ### Places -/

theorem pow_digitCount_le {n : ℕ} (hn : 0 < n) : 10 ^ (digitCount n - 1) ≤ n := by
  unfold digitCount
  rw [if_neg hn.ne']
  by_contra hlt
  rcases Nat.eq_zero_or_pos ((Nat.toDigits 10 n).length - 1) with hzero | hpos
  · rw [hzero] at hlt
    omega
  · have hle := (Nat.length_toDigits_le_iff (by decide) hpos).2 (not_le.1 hlt)
    omega

theorem le_leadingZeros {value unit fuel : ℕ} (h : unit ≤ value * 10 ^ (fuel + 1)) :
    unit ≤ value * 10 ^ (leadingZeros value unit fuel + 1) := by
  induction fuel generalizing value with
  | zero => exact h
  | succ fuel ih =>
    unfold leadingZeros
    split
    · rename_i hle
      simpa using hle
    · rw [pow_succ', ← mul_assoc] at h
      have hnext := ih h
      rw [mul_assoc, ← pow_succ'] at hnext
      exact hnext

namespace Interval

variable {i : Interval}

/-- The first digit of a number is at its magnitude. -/
theorem magnitude_le (hunit : 0 < i.unit) (hleast : i.unit ≤ i.value * 10 ^ (400 + 1)) :
    (10 : ℚ) ^ (i.magnitude - 1) ≤ i.value / i.unit := by
  have hpos : (0 : ℚ) < i.unit := by exact_mod_cast hunit
  unfold magnitude
  split
  · rename_i hle
    have hquotient : 0 < i.value / i.unit := Nat.div_pos hle hunit
    have hcount : 0 < digitCount (i.value / i.unit) := by
      unfold digitCount
      rw [if_neg hquotient.ne']
      exact Nat.length_toDigits_pos
    calc (10 : ℚ) ^ ((digitCount (i.value / i.unit) : ℤ) - 1)
        = ((10 ^ (digitCount (i.value / i.unit) - 1) : ℕ) : ℚ) := by
          push_cast
          rw [← zpow_natCast, Nat.cast_sub hcount]
          rfl
      _ ≤ ((i.value / i.unit : ℕ) : ℚ) := by exact_mod_cast pow_digitCount_le hquotient
      _ ≤ i.value / i.unit := Nat.cast_div_le
  · have hzeros := le_leadingZeros hleast
    generalize leadingZeros i.value i.unit 400 = z at hzeros
    have hzeros : (i.unit : ℚ) ≤ i.value * 10 ^ (z + 1) := by exact_mod_cast hzeros
    rw [show -(z : ℤ) - 1 = -((z + 1 : ℕ) : ℤ) by push_cast; ring, zpow_neg, zpow_natCast,
      inv_le_iff_one_le_mul₀ (by positivity), div_mul_eq_mul_div, le_div_iff₀ hpos]
    linarith

/-- The number cut off behind the last digit. -/
def cutOff (i : Interval) (p : ℤ) : ℕ := i.value * 10 ^ (-p).toNat / (i.unit * 10 ^ p.toNat)

theorem nearest?_cases (i : Interval) (p : ℤ) :
    (i.nearest? p = some (i.cutOff p) ∧ 0 < i.cutOff p ∧ i.contains (i.cutOff p) p = true) ∨
    (i.nearest? p = some (i.cutOff p + 1) ∧ i.contains (i.cutOff p + 1) p = true) ∨
    (i.nearest? p = none ∧ i.contains (i.cutOff p + 1) p = false) := by
  have hcut : i.value * Nat.pow 10 (-p).toNat / (i.unit * Nat.pow 10 p.toNat) = i.cutOff p := rfl
  unfold nearest?
  simp only [hcut]
  generalize i.cutOff p = d
  have hnext : (decide (0 < d + 1) && i.contains (d + 1) p) = i.contains (d + 1) p := by simp
  rw [hnext]
  have hdown : (decide (0 < d) && i.contains d p) = true ↔ 0 < d ∧ i.contains d p = true := by simp
  cases hin : (decide (0 < d) && i.contains d p) <;> cases hup : i.contains (d + 1) p
  · exact .inr (.inr ⟨rfl, rfl⟩)
  · exact .inr (.inl ⟨rfl, rfl⟩)
  · exact .inl ⟨rfl, hdown.1 hin⟩
  · by_cases hhalf : 2 * (i.value * Nat.pow 10 (-p).toNat % (i.unit * Nat.pow 10 p.toNat)) <
        i.unit * Nat.pow 10 p.toNat
    · exact .inl ⟨if_pos hhalf, hdown.1 hin⟩
    · exact .inr (.inl ⟨if_neg hhalf, rfl⟩)

/-- **The best decimal of some places** is in the interval. -/
theorem nearest?_contains (h : i.nearest? p = some d) : 0 < d ∧ i.contains d p = true := by
  rcases nearest?_cases i p with ⟨heq, hd⟩ | ⟨heq, hd⟩ | ⟨heq, -⟩ <;> rw [h] at heq
  · obtain rfl := Option.some.inj heq
    exact hd
  · obtain rfl := Option.some.inj heq
    exact ⟨Nat.succ_pos _, hd⟩
  · simp at heq

/-- Where the last digit counts less than the interval reaches up, there is a decimal in it. -/
theorem nearest?_isSome (hunit : 0 < i.unit) (hlow : i.low ≤ i.value)
    (hpower : (i.value : ℚ) / i.unit + 10 ^ p < i.high / i.unit) :
    (i.nearest? p).isSome = true := by
  have hpos : (0 : ℚ) < i.unit := by exact_mod_cast hunit
  have htens : (0 : ℚ) < 10 ^ p := by positivity
  have hle : (i.low : ℚ) / i.unit ≤ i.value / i.unit := by gcongr
  -- the number in units of the last digit
  have hunits : ((i.value * 10 ^ (-p).toNat : ℕ) : ℚ) / (i.unit * 10 ^ p.toNat : ℕ) =
      i.value / i.unit / 10 ^ p := by
    push_cast
    rw [← ten_zpow_mul p]
    field_simp
  have hdown : (i.cutOff p : ℚ) * 10 ^ p ≤ i.value / i.unit := by
    rw [← le_div_iff₀ htens, ← hunits]
    exact Nat.cast_div_le
  have hup : (i.value : ℚ) / i.unit < ((i.cutOff p + 1 : ℕ) : ℚ) * 10 ^ p := by
    rw [← div_lt_iff₀ htens, ← hunits, div_lt_iff₀ (by positivity)]
    exact_mod_cast Nat.lt_mul_of_div_lt (Nat.lt_succ_self (i.cutOff p))
      (Nat.mul_pos hunit (Nat.pow_pos (by decide)))
  have hinside : i.contains (i.cutOff p + 1) p = true := by
    rw [contains_iff i hpos]
    push_cast at hup ⊢
    split <;> constructor <;> linarith
  rcases nearest?_cases i p with ⟨heq, -⟩ | ⟨heq, -⟩ | ⟨-, hnone⟩
  · rw [heq]; rfl
  · rw [heq]; rfl
  · rw [hinside] at hnone
    simp at hnone

/-- The search finds a decimal within its fuel. -/
theorem search_contains {count fuel : ℕ}
    (h : ∃ j < fuel, (i.nearest? (i.magnitude - (count + j : ℕ))).isSome = true) :
    0 < (i.search count fuel).1 ∧
      i.contains (i.search count fuel).1 (i.search count fuel).2 = true := by
  induction fuel generalizing count with
  | zero =>
    obtain ⟨j, hj, -⟩ := h
    omega
  | succ fuel ih =>
    unfold search
    simp only
    split
    · rename_i digits hdigits
      exact nearest?_contains hdigits
    · rename_i hnone
      obtain ⟨j, hj, hsome⟩ := h
      refine ih ?_
      cases j with
      | zero => simp [hnone] at hsome
      | succ j =>
        rw [show count + (j + 1) = count + 1 + j by omega] at hsome
        exact ⟨j, by omega, hsome⟩

end Interval

/-- **Seventeen digits are enough**, and one more is searched for. -/
theorem shortest_contains (hm : 0 < m) (hc : Canonical m e) :
    0 < (shortest m e).1 ∧
      (Interval.around m e).contains (shortest m e).1 (shortest m e).2 = true := by
  have hunit : 0 < (Interval.around m e).unit := Nat.pow_pos (by decide)
  have hpos : (0 : ℚ) < 2 ^ e := by positivity
  have htens (k : ℕ) : 2 ^ (3 * k) ≤ 10 ^ k := by
    rw [pow_mul]
    exact Nat.pow_le_pow_left (by decide) k
  have hleast : (Interval.around m e).unit ≤ (Interval.around m e).value * 10 ^ (400 + 1) := by
    calc 2 ^ (2 - e).toNat ≤ 2 ^ (3 * (400 + 1)) :=
          Nat.pow_le_pow_right (by decide) (by have := hc.least; omega)
      _ ≤ 10 ^ (400 + 1) := htens _
      _ ≤ (Interval.around m e).value * 10 ^ (400 + 1) :=
          Nat.le_mul_of_pos_left _ (Nat.mul_pos (by omega) (Nat.pow_pos (by decide)))
  have hmagnitude := Interval.magnitude_le hunit hleast
  rw [Interval.around_value] at hmagnitude
  rw [shortest, if_neg hm.ne']
  refine Interval.search_contains ⟨17, by decide, Interval.nearest?_isSome hunit ?_ ?_⟩
  · exact Nat.mul_le_mul_right _ (Nat.sub_le _ _)
  · generalize (Interval.around m e).magnitude = k at hmagnitude ⊢
    rw [Interval.around_value, Interval.around_high]
    have hsplit : (10 : ℚ) ^ (k - 1) = 10 ^ (k - (1 + 17 : ℕ)) * 10 ^ 17 := by
      rw [← zpow_natCast, ← zpow_add₀ (by norm_num)]
      congr 1
      push_cast
      ring
    have hmax : (m : ℚ) < 2 ^ 53 := by exact_mod_cast hc.significand
    rw [hsplit] at hmagnitude
    generalize (10 : ℚ) ^ (k - (1 + 17 : ℕ)) = a at hmagnitude ⊢
    generalize (2 : ℚ) ^ e = b at hpos hmagnitude ⊢
    have hlt : (m : ℚ) * b < 2 ^ 53 * b := by gcongr
    linarith

/-! ### Places written out -/

section Places

open FixedPoint (digitsValue_toDigits)
open Lexeme (digitsValue)

theorem digitsValue_append_zeros (digits : List Char) (n : ℕ) :
    digitsValue (digits ++ List.replicate n '0') = digitsValue digits * 10 ^ n := by
  have happend := Nat.ofDigitChars_append (b := 10) (l := digits) (m := List.replicate n '0') 0
  rw [Nat.ofDigitChars_replicate_zero, mul_comm] at happend
  exact happend

theorem digitsValue_zeros_append (n : ℕ) (digits : List Char) :
    digitsValue (List.replicate n '0' ++ digits) = digitsValue digits := by
  have happend := Nat.ofDigitChars_append (b := 10) (l := List.replicate n '0') (m := digits) 0
  rw [Nat.ofDigitChars_replicate_zero, mul_zero] at happend
  exact happend

/-- The zeros at the end of digits can be left out. -/
theorem exists_zeros (digits : List Char) : ∃ n,
    digits = (digits.reverse.dropWhile (· == '0')).reverse ++ List.replicate n '0' := by
  have hparts := List.takeWhile_append_dropWhile (p := (· == '0')) (l := digits.reverse)
  have hzeros : digits.reverse.takeWhile (· == '0') =
      List.replicate (digits.reverse.takeWhile (· == '0')).length '0' :=
    List.eq_replicate_of_mem fun c hc => by simpa using List.mem_takeWhile_imp hc
  refine ⟨(digits.reverse.takeWhile (· == '0')).length, ?_⟩
  rw [hzeros] at hparts
  have hreverse := congrArg List.reverse hparts
  rw [List.reverse_append, List.reverse_replicate, List.reverse_reverse] at hreverse
  exact hreverse.symm

theorem isDigit_of_mem_padded {n d : ℕ} {c : Char}
    (hc : c ∈ List.replicate n '0' ++ Nat.toDigits 10 d) : c.isDigit = true := by
  rcases List.mem_append.1 hc with hc | hc
  · rw [List.eq_of_mem_replicate hc]
    rfl
  · exact Nat.isDigit_of_mem_toDigits (by decide) le_rfl hc

theorem text_eq_signText (l : Literal) {s : String}
    (hs : s.toList = l.whole ++ (if l.fraction.isEmpty then [] else '.' :: l.fraction)) :
    l.text = signText l.negative ++ s := by
  have hsign : (signText l.negative).toList = if l.negative then ['-'] else [] := by
    cases l.negative <;> rfl
  rw [← String.toList_inj, String.toList_append, hs, hsign, Literal.text, String.toList_ofList,
    Lexeme.numberText, List.append_assoc]

/-- A decimal without places. -/
theorem exists_positional_whole (negative : Bool) (d : ℕ) (hp : 0 ≤ p) : ∃ l : Literal,
    l.negative = negative ∧ l.text = signText negative ++ positional d p ∧ l.size = d * 10 ^ p := by
  have hpower : (10 : ℚ) ^ p = 10 ^ p.toNat := by
    rw [← zpow_natCast, Int.toNat_of_nonneg hp]
  by_cases hd : d = 0
  · refine ⟨⟨negative, ['0'], [], by decide, by simp⟩, rfl, text_eq_signText _ ?_, ?_⟩
    · simp [positional, hp, hd]
    · simp [Literal.size, hd, digitsValue]
  · have hne : Nat.toDigits 10 d ++ List.replicate p.toNat '0' ≠ [] := by
      simp [Nat.toDigits_ne_nil]
    refine ⟨⟨negative, Nat.toDigits 10 d ++ List.replicate p.toNat '0', [], hne, fun c hc => ?_⟩,
      rfl, text_eq_signText _ ?_, ?_⟩
    · rw [List.append_nil] at hc
      rcases List.mem_append.1 hc with hc | hc
      · exact Nat.isDigit_of_mem_toDigits (by decide) le_rfl hc
      · rw [List.eq_of_mem_replicate hc]
        rfl
    · simp [positional, hp, hd]
    · have hvalue : digitsValue (Nat.toDigits 10 d ++ List.replicate p.toNat '0' ++ []) =
          d * 10 ^ p.toNat := by
        rw [List.append_nil, digitsValue_append_zeros, digitsValue_toDigits]
      change (digitsValue (Nat.toDigits 10 d ++ List.replicate p.toNat '0' ++ []) : ℚ) / 10 ^ 0 = _
      rw [hvalue, hpower, pow_zero, div_one]
      push_cast
      rfl

/-- A decimal with places: there is at least one digit before the point, and there are no zeros
at the end. -/
theorem exists_positional_places (negative : Bool) (d : ℕ) (hp : p < 0) : ∃ l : Literal,
    l.negative = negative ∧ l.text = signText negative ++ positional d p ∧ l.size = d * 10 ^ p := by
  have hpower : (10 : ℚ) ^ p = (10 ^ (-p).toNat)⁻¹ := by
    rw [← zpow_natCast, Int.toNat_of_nonneg (by omega), zpow_neg, inv_inv]
  unfold positional
  rw [if_neg (by omega)]
  simp only
  generalize hpadded : List.replicate ((-p).toNat + 1 - (Nat.toDigits 10 d).length) '0' ++
    Nat.toDigits 10 d = padded
  have hlength : (-p).toNat < padded.length := by
    rw [← hpadded, List.length_append, List.length_replicate]
    omega
  have hvalue : digitsValue padded = d := by
    rw [← hpadded, digitsValue_zeros_append, digitsValue_toDigits]
  have hdigits : ∀ c ∈ padded, c.isDigit = true := fun c hc => by
    rw [← hpadded] at hc
    exact isDigit_of_mem_padded hc
  obtain ⟨n, hn⟩ := exists_zeros (padded.drop (padded.length - (-p).toNat))
  generalize ((padded.drop (padded.length - (-p).toNat)).reverse.dropWhile (· == '0')).reverse =
    kept at hn
  have hparts : padded =
      padded.take (padded.length - (-p).toNat) ++ kept ++ List.replicate n '0' := by
    rw [List.append_assoc, ← hn, List.take_append_drop]
  have hplaces : kept.length + n = (-p).toNat := by
    have hdrop := congrArg List.length hn
    rw [List.length_drop, List.length_append, List.length_replicate] at hdrop
    omega
  refine ⟨⟨negative, padded.take (padded.length - (-p).toNat), kept, ?_, fun c hc => ?_⟩, rfl,
    text_eq_signText _ ?_, ?_⟩
  · rw [← List.length_pos_iff, List.length_take]
    omega
  · refine hdigits c ?_
    rw [hparts]
    exact List.mem_append_left _ hc
  · cases kept <;> simp
  · change (digitsValue (padded.take (padded.length - (-p).toNat) ++ kept) : ℚ) /
      10 ^ kept.length = _
    have hscaled : d = digitsValue (padded.take (padded.length - (-p).toNat) ++ kept) * 10 ^ n := by
      rw [← digitsValue_append_zeros, ← hparts, hvalue]
    generalize digitsValue (padded.take (padded.length - (-p).toNat) ++ kept) = v at hscaled ⊢
    rw [hpower, ← hplaces, hscaled, pow_add]
    push_cast
    field_simp

/-- **A decimal with all its places** is a literal of its size. -/
theorem exists_positional (negative : Bool) (d : ℕ) (p : ℤ) : ∃ l : Literal,
    l.negative = negative ∧ l.text = signText negative ++ positional d p ∧ l.size = d * 10 ^ p := by
  rcases le_or_gt 0 p with hp | hp
  · exact exists_positional_whole negative d hp
  · exact exists_positional_places negative d hp

end Places

end Schematic.Decimal
