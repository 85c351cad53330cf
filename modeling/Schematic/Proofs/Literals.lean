import Mathlib
import Schematic.Proofs.Spelling
import Schematic.Proofs.Tiling

/-!
# Literals

The texts that stand for numbers: digits, perhaps with a sign before and a fraction behind.

* `Literal`: what a number is written with, and its size.
* `Literal.size_lt`: the size by the digits before the point.
* `Literal.heads`, `Heads.literal`: literals are what number tokens are read from.
-/

namespace Schematic

/-- **What a number is written with.** -/
structure Literal where
  negative : Bool
  /-- The digits before the point. -/
  whole : List Char
  /-- The digits after the point, none if there is no point. -/
  fraction : List Char
  whole_ne_nil : whole ≠ []
  isDigit : ∀ c ∈ whole ++ fraction, c.isDigit = true

namespace Literal

open Lexeme (digitsValue numberText)

/-- The written form of a literal. -/
def text (l : Literal) : String := String.ofList (numberText l.negative l.whole l.fraction)

/-- How large the number is, without its sign. -/
def size (l : Literal) : ℚ := digitsValue (l.whole ++ l.fraction) / 10 ^ l.fraction.length

theorem digitsValue_lt {digits : List Char} (h : ∀ c ∈ digits, c.isDigit = true) :
    digitsValue digits < 10 ^ digits.length := by
  induction digits using List.reverseRecOn with
  | nil => decide
  | append_singleton digits c ih =>
    have hinit := ih fun d hd => h d (List.mem_append_left _ hd)
    have hdigit : c.toNat ≤ '9'.toNat := by
      have hc := h c (by simp)
      rw [Char.isDigit, Bool.and_eq_true, decide_eq_true_eq, decide_eq_true_eq] at hc
      exact hc.2
    have hlast : digitsValue (digits ++ [c]) = 10 * digitsValue digits + (c.toNat - '0'.toNat) :=
      List.foldl_append
    have hzero : '0'.toNat = 48 := rfl
    have hnine : '9'.toNat = 57 := rfl
    rw [hlast, List.length_append, List.length_singleton, pow_succ]
    omega

/-- A number is below the power of ten of its digits before the point. -/
theorem size_lt (l : Literal) : l.size < 10 ^ l.whole.length := by
  have hvalue : (digitsValue (l.whole ++ l.fraction) : ℚ) <
      10 ^ (l.whole ++ l.fraction).length := by
    exact_mod_cast digitsValue_lt l.isDigit
  rwa [size, div_lt_iff₀ (by positivity), ← pow_add, ← List.length_append]

variable {α : Type} [Numeral α] {w rest : List Char} {x : α}

/-- The number that is read. -/
def read (α : Type) [Numeral α] (l : Literal) : α :=
  Numeral.ofDecimal l.negative (digitsValue (l.whole ++ l.fraction)) l.fraction.length

/-- **A literal** is read as its number. -/
theorem heads (l : Literal) (hrest : Stops Lexeme.isNumberPart rest) :
    Heads l.text.toList rest (.number (l.read α)) := by
  rw [Heads, text, String.toList_ofList]
  exact Lexeme.atHead?_number l.negative l.whole_ne_nil l.isDigit hrest

/-- A literal alone has one token. -/
theorem lex_text (l : Literal) :
    lex l.text = .ok [⟨.number (l.read α), ⟨0, l.text.utf8ByteSize⟩⟩] := by
  have hne : l.text.toList ≠ [] := by
    rw [text, String.toList_ofList, numberText]
    simp [l.whole_ne_nil]
  have hstops : Stops Lexeme.isNumberPart [] := by simp [Stops]
  have hlex := lex_word hne (l.heads (α := α) hstops)
  rwa [String.ofList_toList, byteLength_toList] at hlex

/-- There is no blank in a literal. -/
theorem blank_not_mem_text (l : Literal) : ' ' ∉ l.text.toList := by
  intro hmem
  have hblank : ∀ c ∈ l.whole ++ l.fraction, c ≠ ' ' := by
    rintro c hc rfl
    simpa using l.isDigit _ hc
  simp only [List.forall_mem_append] at hblank
  rw [text, String.toList_ofList, numberText, List.mem_append, List.mem_append] at hmem
  rcases hmem with (hsign | hwhole) | hfraction
  · split at hsign <;> simp at hsign
  · exact hblank.1 _ hwhole rfl
  · split at hfraction
    · simp at hfraction
    · simp only [List.mem_cons] at hfraction
      rcases hfraction with hpoint | hfraction
      · simp at hpoint
      · exact hblank.2 _ hfraction rfl
theorem isDigit_of_mem_fractionAt {text : List Char} {c : Char}
    (hc : c ∈ Lexeme.fractionAt text) : c.isDigit = true := by
  unfold Lexeme.fractionAt at hc
  split at hc
  · exact List.mem_takeWhile_imp hc
  · simp at hc

theorem exists_point {text : List Char} (h : Lexeme.fractionAt text ≠ []) :
    ∃ after, text = '.' :: after := by
  unfold Lexeme.fractionAt at h
  split at h
  · exact ⟨_, rfl⟩
  · exact absurd rfl h

/-- A fraction that takes all of a text. -/
theorem eq_fractionAt (text : List Char) (h : (if (Lexeme.fractionAt text).isEmpty then 0 else 1) +
    (Lexeme.fractionAt text).length = text.length) :
    (if (Lexeme.fractionAt text).isEmpty then [] else '.' :: Lexeme.fractionAt text) = text := by
  simp only [List.isEmpty_iff] at h ⊢
  split
  · rename_i hnil
    rw [hnil, if_pos rfl] at h
    exact (List.length_eq_zero_iff.1 h.symm).symm
  · rename_i hne
    obtain ⟨after, rfl⟩ := exists_point hne
    have hpoint : Lexeme.fractionAt ('.' :: after) = after.takeWhile Char.isDigit := rfl
    rw [if_neg hne, hpoint, List.length_cons] at h
    rw [hpoint, takeWhile_eq_of_length (by omega)]

/-- **A number that takes all of a text** is that of a literal. -/
theorem exists_of_numberFrom {negative : Bool} {unsigned : List Char} {lexeme : Lexeme α}
    (h : Lexeme.numberFrom negative unsigned = some lexeme)
    (hlength : lexeme.length = negative.toNat + unsigned.length) :
    ∃ l : Literal, l.text.toList = (if negative then ['-'] else []) ++ unsigned ∧
      lexeme.token = .number (l.read α) := by
  obtain ⟨hne, rfl⟩ := Lexeme.numberFrom_eq_some_iff.1 h
  have hlength : Lexeme.unsignedLength unsigned = unsigned.length := Nat.add_left_cancel hlength
  have hfraction := eq_fractionAt (unsigned.drop (unsigned.takeWhile Char.isDigit).length) (by
    have hle := (List.takeWhile_prefix Char.isDigit (l := unsigned)).length_le
    simp only [Lexeme.unsignedLength] at hlength
    rw [List.length_drop]
    omega)
  refine ⟨⟨negative, unsigned.takeWhile Char.isDigit,
    Lexeme.fractionAt (unsigned.drop (unsigned.takeWhile Char.isDigit).length), hne,
    fun c hc => ?_⟩, ?_, rfl⟩
  · rcases List.mem_append.1 hc with hc | hc
    · exact List.mem_takeWhile_imp hc
    · exact isDigit_of_mem_fractionAt hc
  · rw [text, String.toList_ofList, numberText, hfraction, List.append_assoc]
    congr 1
    exact List.prefix_iff_eq_append.1 (List.takeWhile_prefix _)

omit [Numeral α] in
theorem ofWord_ne_number (word : String) (x : α) : Token.ofWord word ≠ .number x := by
  intro hx
  have hspelling := Token.spelling?_ofWord (α := α) word
  rw [hx] at hspelling
  simp [Token.spelling?] at hspelling

/-- A token that is a number is read as one. -/
theorem number?_of_atHead? {lexeme : Lexeme α} (h : Lexeme.atHead? w = some lexeme)
    (hx : lexeme.token = .number x) : Lexeme.number? w = some lexeme := by
  unfold Lexeme.atHead? at h
  rcases Lexeme.longer?_eq_some h with h | ⟨h, -⟩
  · exact h
  exfalso
  rcases Lexeme.longer?_eq_some h with h | ⟨h, -⟩
  · unfold Lexeme.word? at h
    split at h
    · simp at h
    · split at h
      · obtain rfl := Option.some.inj h
        exact ofWord_ne_number _ _ hx
      · simp at h
  rcases Lexeme.longer?_eq_some h with h | ⟨h, -⟩
  · unfold Lexeme.comment? at h
    split at h
    · obtain rfl := Option.some.inj h
      simp at hx
    · simp at h
  rcases Lexeme.longer?_eq_some h with h | ⟨h, -⟩
  · obtain ⟨rest, held, read, -, -, rfl⟩ := Lexeme.quoted?_eq_some_iff.1 h
    simp at hx
  rcases Lexeme.longer?_eq_some h with h | ⟨h, -⟩
  · unfold Lexeme.hex? at h
    split at h
    · simp only at h
      split at h
      · simp at h
      · obtain rfl := Option.some.inj h
        simp at hx
    · simp at h
  · obtain ⟨⟨t, n⟩, hsymbol, rfl⟩ := Option.map_eq_some_iff.1 h
    unfold Token.ofSymbol? at hsymbol
    split at hsymbol <;> simp only [Option.some.injEq, Prod.mk.injEq, reduceCtorEq] at hsymbol <;>
      obtain ⟨rfl, -⟩ := hsymbol <;> simp at hx

end Literal

variable {α : Type} [Numeral α] {w rest : List Char} {x : α}

/-- **What a number token is read from** is a literal. -/
theorem Heads.literal (h : Heads w rest (.number x)) :
    ∃ l : Literal, l.text.toList = w ∧ l.read α = x := by
  have halone : Lexeme.atHead? w = some ⟨.number x, w.length⟩ := by
    have hpart := h.of_part List.nil_prefix
    rwa [Heads, List.append_nil] at hpart
  have hnumber := Literal.number?_of_atHead? halone rfl
  obtain ⟨negative, unsigned, rfl, heq, -⟩ := Lexeme.number?_eq_numberFrom (α := α) w
  rw [heq] at hnumber
  obtain ⟨l, htext, hread⟩ := Literal.exists_of_numberFrom hnumber
    (by cases negative <;> simp [Nat.add_comm])
  exact ⟨l, htext, (Token.number.inj hread).symm⟩

end Schematic
