import Schematic.Proofs.Doubles

/-!
# Fixed-point numbers

Numbers with sixty decimals, and the operations on them rounded to the nearest. They round
as finely as doubles do within the range that is asked for, and are written with all their
decimals, so they meet all that is taken for granted of doubles.

* `FixedPoint`: a number of units of `10 ^ -60`.
* `FixedPoint.doubles`: they meet the assumptions.
-/

namespace Schematic

/-- A number with sixty decimals. -/
structure FixedPoint where
  units : ℤ
deriving DecidableEq, Repr

namespace FixedPoint

/-- The units of one. -/
def scale : ℕ := 10 ^ 60

/-- The exact value. -/
def value (x : FixedPoint) : Rat := x.units / scale

/-- The nearest number to an exact value. -/
def ofRat (q : Rat) : FixedPoint := ⟨⌊q * scale + 1 / 2⌋⟩

instance : Scalar FixedPoint where
  add x y := ⟨x.units + y.units⟩
  sub x y := ⟨x.units - y.units⟩
  mul x y := ofRat (x.value * y.value)
  div x y := ofRat (x.value / y.value)
  neg x := ⟨-x.units⟩
  le x y := x.units ≤ y.units
  lt x y := x.units < y.units
  beq x y := x.units == y.units
  natCast n := ⟨n * scale⟩
  decLe x y := inferInstanceAs (Decidable (x.units ≤ y.units))
  decLt x y := inferInstanceAs (Decidable (x.units < y.units))
  ceilNat x := ⌈x.value⌉₊
  floorNat x := ⌊x.value⌋₊
  roundNat x := ⌊x.value + 1 / 2⌋₊

/-- The last `count` decimal digits of a natural number. -/
def lastDigits : (count n : ℕ) → List Char
  | 0, _ => []
  | count + 1, n => lastDigits count (n / 10) ++ [Nat.digitChar (n % 10)]

/-- The decimals of a number, none for a whole one. -/
def decimals (units : ℕ) : List Char :=
  if units % scale = 0 then [] else lastDigits 60 (units % scale)

/-- The plain text of a number. -/
def plain (x : FixedPoint) : String :=
  let units := x.units.natAbs
  String.ofList ((if x.units < 0 then ['-'] else []) ++ Nat.toDigits 10 (units / scale) ++
    (if (decimals units).isEmpty then [] else '.' :: decimals units))

instance : Numeral FixedPoint where
  ofDecimal negative digits places :=
    let units : ℤ := (digits * scale / 10 ^ places : ℕ)
    ⟨if negative then -units else units⟩
  plain := plain
  listing := plain

/-! ### Rounding -/

theorem scale_pos : (0 : Rat) < scale := by norm_num [scale]

theorem value_natCast (n : ℕ) : value (n : FixedPoint) = n := by
  have hunits : (n : FixedPoint) = ⟨n * scale⟩ := rfl
  rw [hunits, value]
  push_cast
  rw [mul_div_cancel_right₀ _ scale_pos.ne']

theorem ofRat_natCast (n : ℕ) : ofRat (n : Rat) = (n : FixedPoint) := by
  have hunits : (n : FixedPoint) = ⟨n * scale⟩ := rfl
  rw [hunits, ofRat, FixedPoint.mk.injEq, Int.floor_eq_iff]
  push_cast
  constructor <;> linarith

/-- A value is off by half a unit at most. -/
theorem value_ofRat (q : Rat) : |value (ofRat q) - q| ≤ 1 / 2 / scale := by
  have hlow := Int.floor_le (q * scale + 1 / 2)
  have hhigh := Int.lt_floor_add_one (q * scale + 1 / 2)
  have hdiff : value (ofRat q) - q = (⌊q * scale + 1 / 2⌋ - q * scale) / scale := by
    rw [value, ofRat, sub_div, mul_div_cancel_right₀ _ scale_pos.ne']
  rw [hdiff, abs_div, abs_of_pos scale_pos]
  gcongr
  rw [abs_le]
  constructor <;> linarith

theorem near_ofRat {q : Rat} (hq : Doubles.InRange q) : Doubles.Near (value (ofRat q)) q := by
  -- half a unit is far below the last place of anything within the range
  refine (value_ofRat q).trans ?_
  have hlow := hq.1
  calc (1 : Rat) / 2 / scale ≤ 1 / 2 ^ 100 / 2 ^ 53 := by norm_num [scale]
    _ ≤ |q| / 2 ^ 53 := by gcongr

/-! ### Decimals -/

theorem digitsValue_append_digitChar (digits : List Char) {d : ℕ} (hd : d < 10) :
    Lexeme.digitsValue (digits ++ [Nat.digitChar d]) = 10 * Lexeme.digitsValue digits + d := by
  have hchar : (Nat.digitChar d).toNat - '0'.toNat = d := by
    interval_cases d <;> rfl
  rw [Lexeme.digitsValue, List.foldl_append]
  simp only [List.foldl_cons, List.foldl_nil, hchar]
  rfl

theorem digitsValue_append_lastDigits (digits : List Char) (count n : ℕ) :
    Lexeme.digitsValue (digits ++ lastDigits count n) =
      Lexeme.digitsValue digits * 10 ^ count + n % 10 ^ count := by
  induction count generalizing n with
  | zero => simp [lastDigits, Nat.mod_one]
  | succ count ih =>
    rw [lastDigits, ← List.append_assoc, digitsValue_append_digitChar _ (Nat.mod_lt _ (by decide)),
      ih, pow_succ']
    -- the last digit counts once, the digits before it ten times
    have hmod : n % (10 * 10 ^ count) = n % 10 + 10 * (n / 10 % 10 ^ count) := Nat.mod_mul
    rw [hmod]
    ring

theorem digitsValue_toDigits (n : ℕ) : Lexeme.digitsValue (Nat.toDigits 10 n) = n :=
  Nat.ofDigitChars_ten_toDigits

theorem length_lastDigits (count n : ℕ) : (lastDigits count n).length = count := by
  induction count generalizing n with
  | zero => rfl
  | succ count ih => rw [lastDigits, List.length_append, ih]; rfl

theorem isDigit_of_mem_lastDigits {count n : ℕ} {c : Char} (hc : c ∈ lastDigits count n) :
    c.isDigit = true := by
  induction count generalizing n with
  | zero => simp [lastDigits] at hc
  | succ count ih =>
    rcases List.mem_append.1 hc with hc | hc
    · exact ih hc
    · have hlt : n % 10 < 10 := Nat.mod_lt _ (by decide)
      rw [List.mem_singleton.1 hc]
      interval_cases n % 10 <;> rfl

/-- The digits of a number are those of its units, but for the zeros of a whole one. -/
theorem digitsValue_decimals (units : ℕ) :
    Lexeme.digitsValue (Nat.toDigits 10 (units / scale) ++ decimals units) * scale /
      10 ^ (decimals units).length = units := by
  have hpos : 0 < scale := by norm_num [scale]
  unfold decimals
  split
  · rename_i hwhole
    rw [List.append_nil, digitsValue_toDigits, List.length_nil, pow_zero, Nat.div_one,
      Nat.div_mul_cancel (Nat.dvd_of_mod_eq_zero hwhole)]
  · have hlt : units % scale % 10 ^ 60 = units % scale := Nat.mod_mod _ _
    have hsum : units / scale * 10 ^ 60 + units % scale = units := Nat.div_add_mod' _ _
    rw [digitsValue_append_lastDigits, digitsValue_toDigits, length_lastDigits, hlt, hsum]
    exact Nat.mul_div_cancel _ hpos

/-- **Fixed-point numbers meet the assumptions**, all of them being finite. -/
def doubles : Doubles FixedPoint where
  finite _ := True
  value := value
  natCast n _ := ⟨trivial, value_natCast n⟩
  natCast_mul m n _ _ _ := by
    have hvalue : value m * value n = ((m * n : ℕ) : Rat) := by
      rw [value_natCast, value_natCast, Nat.cast_mul]
    exact (congrArg ofRat hvalue).trans (ofRat_natCast _)
  natCast_div m n hn _ _ := by
    have hvalue : value ((m * n : ℕ) : FixedPoint) / value n = (m : Rat) := by
      rw [value_natCast, value_natCast, Nat.cast_mul,
        mul_div_cancel_right₀ _ (Nat.cast_ne_zero.2 hn.ne')]
    exact (congrArg ofRat hvalue).trans (ofRat_natCast _)
  lt_iff x y _ _ := by
    have hunits : x < y ↔ x.units < y.units := Iff.rfl
    rw [hunits, value, value, div_lt_div_iff_of_pos_right scale_pos, Int.cast_lt]
  mul x y _ _ hq := ⟨trivial, near_ofRat hq⟩
  div x y _ _ hq := ⟨trivial, near_ofRat hq⟩
  roundNat x _ _ _ := rfl
  plain x _ := by
    refine ⟨decide (x.units < 0), Nat.toDigits 10 (x.units.natAbs / scale),
      decimals x.units.natAbs, Nat.toDigits_ne_nil, ?_, ?_, ?_⟩
    · intro c hc
      rcases List.mem_append.1 hc with hc | hc
      · exact Nat.isDigit_of_mem_toDigits (by decide) le_rfl hc
      · unfold decimals at hc
        split at hc
        · simp at hc
        · exact isDigit_of_mem_lastDigits hc
    · have htext : Numeral.plain x = plain x := rfl
      simp [htext, plain]
    · have hunits : (if decide (x.units < 0) then -(x.units.natAbs : ℤ) else x.units.natAbs) =
          x.units := by
        by_cases hneg : x.units < 0
        · rw [decide_eq_true hneg, if_pos rfl]
          omega
        · rw [decide_eq_false hneg, if_neg (by decide)]
          omega
      have hvalue := digitsValue_decimals x.units.natAbs
      simp only [Numeral.ofDecimal, hvalue, hunits]

end FixedPoint

end Schematic
