import Mathlib
import Schematic.Color
import Schematic.Source.Lexing

/-!
# Numbers with rounding

What is taken for granted of the numbers of a source: they are rounded as doubles are, and
the plain text of a finite number reads back as that number. Nothing is said here about
numbers that are not finite.

* `Doubles`: the assumptions, which doubles meet.
* `Doubles.byte_channel`: then the channel of a byte is written as that byte again.
* `Color.OfBytes`: the colours of bytes; all colours of a source are.
* `Doubles.ofHex?_text`: they read back from their text.
-/

namespace Schematic

/-- The greatest natural number up to which all are doubles. -/
def Doubles.whole : ℕ := 2 ^ 53

/-- An exact result that is far from the least and from the greatest doubles. -/
def Doubles.InRange (q : Rat) : Prop := 1 / 2 ^ 100 ≤ |q| ∧ |q| ≤ 2 ^ 100

/-- A value within half a unit in the last place of an exact result. -/
def Doubles.Near (r q : Rat) : Prop := |r - q| ≤ |q| / 2 ^ 53

/-- **What is taken for granted of doubles.** Small natural numbers are exact, and so are
products and quotients of them that are small natural numbers; other products and quotients
are off by half a unit in the last place at most. A finite number is written in decimal
digits, with a sign and a fraction if it needs them, and reads back as itself. -/
structure Doubles (α : Type) [Scalar α] [Numeral α] where
  finite : α → Prop
  /-- The value of a finite number. -/
  value : α → Rat
  natCast : ∀ n ≤ Doubles.whole, finite (n : α) ∧ value (n : α) = n
  natCast_mul : ∀ m n, m ≤ Doubles.whole → n ≤ Doubles.whole → m * n ≤ Doubles.whole →
    (m : α) * (n : α) = ((m * n : ℕ) : α)
  natCast_div : ∀ m n, 0 < n → n ≤ Doubles.whole → m * n ≤ Doubles.whole →
    ((m * n : ℕ) : α) / (n : α) = (m : α)
  lt_iff : ∀ x y, finite x → finite y → (x < y ↔ value x < value y)
  mul : ∀ x y, finite x → finite y → Doubles.InRange (value x * value y) →
    finite (x * y) ∧ Doubles.Near (value (x * y)) (value x * value y)
  div : ∀ x y, finite x → finite y → Doubles.InRange (value x / value y) →
    finite (x / y) ∧ Doubles.Near (value (x / y)) (value x / value y)
  roundNat : ∀ x, finite x → 0 ≤ value x → value x ≤ Doubles.whole →
    Scalar.roundNat x = ⌊value x + 1 / 2⌋₊
  plain : ∀ x, finite x → ∃ (negative : Bool) (digits fraction : List Char),
    digits ≠ [] ∧ (∀ c ∈ digits ++ fraction, c.isDigit = true) ∧
      (Numeral.plain x).toList = (if negative then ['-'] else []) ++ digits ++
        (if fraction.isEmpty then [] else '.' :: fraction) ∧
      Numeral.ofDecimal negative (Lexeme.digitsValue (digits ++ fraction)) fraction.length = x

namespace Doubles

variable {α : Type} [Scalar α] [Numeral α] (h : Doubles α) {b : ℕ}

/-- The channel of a byte. -/
def channel (α : Type) [Scalar α] (b : ℕ) : α := (b : α) / ((255 : ℕ) : α)

include h

theorem channel_zero : channel α 0 = Scalar.zero :=
  h.natCast_div 0 255 (by decide) (by decide) (by decide)

theorem channel_full : channel α 255 = Scalar.one :=
  h.natCast_div 1 255 (by decide) (by decide) (by decide)

/-- Between the ends a channel is off by very little. -/
theorem channel_near (hb : 0 < b) (hb' : b < 255) :
    h.finite (channel α b) ∧ |h.value (channel α b) - b / 255| ≤ 1 / 2 ^ 53 := by
  have hb₁ : (1 : Rat) ≤ b := by exact_mod_cast hb
  have hb₂ : (b : Rat) ≤ 254 := by exact_mod_cast Nat.le_of_lt_succ hb'
  obtain ⟨hf, hv⟩ := h.natCast b (by unfold whole; omega)
  obtain ⟨hf', hv'⟩ := h.natCast 255 (by decide)
  have hpos : (0 : Rat) ≤ b / 255 := by positivity
  obtain ⟨hfin, hnear⟩ := h.div _ _ hf hf' (by
    rw [hv, hv', InRange]
    push_cast
    rw [abs_of_nonneg hpos]
    constructor
    · calc (1 : Rat) / 2 ^ 100 ≤ 1 / 255 := by norm_num
        _ ≤ b / 255 := by gcongr
    · calc (b : Rat) / 255 ≤ 1 := by rw [div_le_one (by norm_num)]; linarith
        _ ≤ 2 ^ 100 := by norm_num)
  -- the bound is relative to the quotient, which is less than one
  refine ⟨hfin, ?_⟩
  rw [Near, hv, hv'] at hnear
  push_cast at hnear
  rw [abs_of_nonneg hpos] at hnear
  refine hnear.trans ?_
  gcongr
  rw [div_le_one (by norm_num)]
  linarith

theorem clamp_eq {x : α} (hf : h.finite x) (h₀ : 0 ≤ h.value x) (h₁ : h.value x ≤ 1) :
    Scalar.clamp Scalar.zero Scalar.one x = x := by
  obtain ⟨hf₀, hv₀⟩ := h.natCast 0 (by decide)
  obtain ⟨hf₁, hv₁⟩ := h.natCast 1 (by decide)
  have hlow : ¬x < (Scalar.zero : α) := by
    rw [Scalar.zero, h.lt_iff x _ hf hf₀, hv₀]
    push_cast
    exact not_lt.2 h₀
  have hhigh : ¬(Scalar.one : α) < x := by
    rw [Scalar.one, h.lt_iff _ x hf₁ hf, hv₁]
    push_cast
    exact not_lt.2 h₁
  rw [Scalar.clamp, if_neg hlow, if_neg hhigh]

theorem roundNat_natCast {n : ℕ} (hn : n ≤ 255) : Scalar.roundNat (n : α) = n := by
  have hw : n ≤ whole := by unfold whole; omega
  obtain ⟨hf, hv⟩ := h.natCast n hw
  rw [h.roundNat _ hf (by rw [hv]; positivity) (by rw [hv]; exact_mod_cast hw), hv,
    Nat.floor_eq_iff (by positivity)]
  constructor <;> linarith

/-- Off or full channels are written as the least and the greatest byte. -/
theorem byte_natCast {n : ℕ} (hn : n ≤ 1) : Color.byte (n : α) = n * 255 := by
  have hw : n ≤ whole := by unfold whole; omega
  obtain ⟨hf, hv⟩ := h.natCast n hw
  have hle : (n : Rat) ≤ 1 := by exact_mod_cast hn
  rw [Color.byte, h.clamp_eq hf (by rw [hv]; positivity) (by rw [hv]; exact hle),
    h.natCast_mul n 255 hw (by decide) (by unfold whole; omega), h.roundNat_natCast (by omega)]

/-- **The channel of a byte is written as that byte.** -/
theorem byte_channel (hb : b < 256) : Color.byte (channel α b) = b := by
  by_cases h₀ : b = 0
  · subst h₀
    exact h.channel_zero ▸ h.byte_natCast (by decide)
  by_cases h₁ : b = 255
  · subst h₁
    exact h.channel_full ▸ h.byte_natCast le_rfl
  -- in between, two roundings of the value `b` add up to much less than one half
  have hb₁ : (1 : Rat) ≤ b := by exact_mod_cast Nat.one_le_iff_ne_zero.2 h₀
  have hb₂ : (b : Rat) ≤ 254 := by exact_mod_cast (by omega : b ≤ 254)
  obtain ⟨hf, hnear⟩ := h.channel_near (Nat.pos_of_ne_zero h₀) (by omega)
  rw [abs_le] at hnear
  have hlow : 1 / 256 ≤ h.value (channel α b) := by linarith
  have hhigh : h.value (channel α b) ≤ 1 := by linarith
  obtain ⟨hf', hv'⟩ := h.natCast 255 (by decide)
  rw [show ((255 : ℕ) : Rat) = 255 from rfl] at hv'
  have hpos : 0 ≤ h.value (channel α b) * 255 := by linarith
  obtain ⟨hfin, hprod⟩ := h.mul _ _ hf hf' (by
    rw [hv', InRange, abs_of_nonneg hpos]
    constructor <;> linarith)
  rw [Near, hv', abs_of_nonneg hpos, abs_le] at hprod
  have hwhole : (1000 : Rat) ≤ whole := by unfold whole; norm_num
  rw [Color.byte, h.clamp_eq hf (by linarith) hhigh, h.roundNat _ hfin (by linarith)
    (by linarith), Nat.floor_eq_iff (by linarith)]
  constructor <;> linarith

/-! ### Colours of bytes -/

theorem bytes_ofBytes {r g b a : ℕ} (hr : r < 256) (hg : g < 256) (hb : b < 256) (ha : a < 256) :
    (Color.ofBytes r g b a : Color α).bytes = [r, g, b, a] := by
  simp only [Color.bytes, Color.ofBytes]
  exact congrArg₂ _ (h.byte_channel hr) (congrArg₂ _ (h.byte_channel hg)
    (congrArg₂ _ (h.byte_channel hb) (congrArg₂ _ (h.byte_channel ha) rfl)))

end Doubles

namespace Color

theorem hexDigit?_hexChar : ∀ n < 16, hexDigit? (hexChar true n) = some n := by decide

/-- Two capital digits spell a byte. -/
theorem mapM_hexDigit?_hexByte {b : ℕ} (hb : b < 256) (rest : List Char) :
    (hexByte true b ++ rest).mapM hexDigit? =
      (rest.mapM hexDigit?).map fun digits => b / 16 :: b % 16 :: digits := by
  have h₁ := hexDigit?_hexChar (b / 16) (by omega)
  have h₂ := hexDigit?_hexChar (b % 16) (Nat.mod_lt _ (by decide))
  simp only [hexByte, List.cons_append, List.nil_append, List.mapM_cons, h₁, h₂]
  cases rest.mapM hexDigit? <;> rfl

theorem hexDigit?_lt {c : Char} {n : ℕ} (h : hexDigit? c = some n) : n < 16 := by
  have hle : ∀ {d e : Char}, d ≤ e → d.toNat ≤ e.toNat := fun h => h
  unfold hexDigit? at h
  split at h
  · rename_i hc
    simp only [Char.isDigit, Bool.and_eq_true, decide_eq_true_eq] at hc
    have := hle (show c ≤ '9' from hc.2)
    obtain rfl := Option.some.inj h
    simp only [show '9'.toNat = 57 from rfl, show '0'.toNat = 48 from rfl] at this ⊢
    omega
  split at h
  · rename_i hc
    have := hle hc.2
    obtain rfl := Option.some.inj h
    simp only [show 'f'.toNat = 102 from rfl, show 'a'.toNat = 97 from rfl] at this ⊢
    omega
  split at h
  · rename_i hc
    have := hle hc.2
    obtain rfl := Option.some.inj h
    simp only [show 'F'.toNat = 70 from rfl, show 'A'.toNat = 65 from rfl] at this ⊢
    omega
  · simp at h

theorem mapM_hexDigit?_lt {text : List Char} {digits : List ℕ}
    (h : text.mapM hexDigit? = some digits) : ∀ d ∈ digits, d < 16 := by
  induction text generalizing digits with
  | nil => simp_all
  | cons c text ih =>
    simp only [List.mapM_cons, Option.bind_eq_bind, Option.bind_eq_some_iff, Option.pure_def,
      Option.some.injEq] at h
    obtain ⟨n, hn, rest, hrest, rfl⟩ := h
    exact List.forall_mem_cons.2 ⟨hexDigit?_lt hn, ih hrest⟩

variable {α : Type} [Scalar α]

/-- **A colour of bytes**, as all colours of a source are. -/
def OfBytes (c : Color α) : Prop :=
  ∃ r g b a, r < 256 ∧ g < 256 ∧ b < 256 ∧ a < 256 ∧ c = ofBytes r g b a

theorem ofHex?_ofBytes {text : String} {c : Color α} (h : ofHex? text = some c) : c.OfBytes := by
  unfold ofHex? at h
  obtain ⟨digits, hdigits, h⟩ := Option.bind_eq_some_iff.1 h
  have hlt := mapM_hexDigit?_lt hdigits
  unfold ofHexDigits? at h
  split at h
  all_goals
    simp only [List.forall_mem_cons, Option.some.injEq, reduceCtorEq] at hlt h
  all_goals
    obtain rfl := h
    exact ⟨_, _, _, _, by omega, by omega, by omega, by omega, rfl⟩

end Color

namespace Doubles

variable {α : Type} [Scalar α] [Numeral α] (h : Doubles α) {c : Color α}

include h

/-- A channel that is off or full is the channel of a byte. -/
theorem primary_ofBytes (red green blue : Bool) :
    (Color.primary red green blue : Color α).OfBytes := by
  have hlevel : ∀ on : Bool, ∃ b < 256,
      (if on then Scalar.one else Scalar.zero : α) = channel α b := by
    rintro (_ | _)
    · exact ⟨0, by decide, h.channel_zero.symm⟩
    · exact ⟨255, by decide, h.channel_full.symm⟩
  obtain ⟨r, hr, hred⟩ := hlevel red
  obtain ⟨g, hg, hgreen⟩ := hlevel green
  obtain ⟨b, hb, hblue⟩ := hlevel blue
  refine ⟨r, g, b, 255, hr, hg, hb, by decide, ?_⟩
  simp only [Color.primary]
  rw [hred, hgreen, hblue, ← h.channel_full]
  rfl

theorem ofName?_ofBytes {name : String} (hc : Color.ofName? name = some c) : c.OfBytes := by
  unfold Color.ofName? at hc
  split at hc <;> simp only [Option.some.injEq, reduceCtorEq] at hc <;> subst hc
  · refine ⟨0, 0, 0, 0, by decide, by decide, by decide, by decide, ?_⟩
    simp only [Color.clear, ← h.channel_zero]
    rfl
  all_goals exact h.primary_ofBytes _ _ _

/-- **A colour of bytes** reads back from its text. -/
theorem ofHex?_text (hc : c.OfBytes) : Color.ofHex? c.text = some c := by
  obtain ⟨r, g, b, a, hr, hg, hb, ha, rfl⟩ := hc
  have hdigits : (Color.ofBytes r g b a : Color α).bytes.flatMap (Color.hexByte true) =
      Color.hexByte true r ++ (Color.hexByte true g ++ (Color.hexByte true b ++
        (Color.hexByte true a ++ []))) := by
    rw [h.bytes_ofBytes hr hg hb ha]
    rfl
  simp only [Color.ofHex?, Color.text, String.toList_ofList, hdigits,
    Color.mapM_hexDigit?_hexByte, hr, hg, hb, ha]
  simp [Color.ofHexDigits?, Nat.div_add_mod]

end Doubles

end Schematic
