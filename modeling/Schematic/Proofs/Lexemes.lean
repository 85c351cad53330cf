import Mathlib
import Schematic.Source.Lexing

/-!
# Tokens of a source

What the tokens of a source can hold: a name is a word that is neither a keyword nor a
number, and a comment stays on its line.

* `IsName`: the texts that are names.
* `Token.Sound`: what tokens hold.
* `Lexeme.atHead?_sound`: a token at the head of a text is sound.
-/

namespace Schematic

/-- The four words that are no names. -/
def keywords : List String := ["box-style", "box", "connect", "constrain"]

/-- **A word**: name characters that are not all digits. -/
structure IsWord (text : List Char) : Prop where
  start : ∃ c ∈ text.head?, Lexeme.isNameStart c = true
  parts : ∀ c ∈ text, Lexeme.isNamePart c = true
  notNumber : ∃ c ∈ text, c.isDigit = false

/-- **A name**: a word that is no keyword. -/
structure IsName (text : String) : Prop where
  word : IsWord text.toList
  notKeyword : text ∉ keywords

variable {α : Type}

/-- **What tokens hold.** -/
def Token.Sound : Token α → Prop
  | .name text => IsName text
  | .comment text => '\n' ∉ text.toList
  | _ => True

namespace Token

theorem ofWord_eq_name {text : String} (h : text ∉ keywords) :
    (ofWord text : Token α) = name text := by
  unfold ofWord
  split <;> simp_all [keywords]

theorem ofWord_sound {text : String} (h : IsWord text.toList) : (ofWord text : Token α).Sound := by
  by_cases hkey : text ∈ keywords
  · simp only [keywords, List.mem_cons, List.not_mem_nil, or_false] at hkey
    rcases hkey with rfl | rfl | rfl | rfl <;> exact trivial
  · rw [ofWord_eq_name hkey]
    exact ⟨h, hkey⟩

theorem ofSymbol?_sound {text : List Char} {t : Token α} {n : ℕ} (h : ofSymbol? text = some (t, n)) :
    t.Sound := by
  unfold ofSymbol? at h
  split at h <;> simp only [Option.some.injEq, Prod.mk.injEq, reduceCtorEq] at h <;>
    obtain ⟨rfl, -⟩ := h <;> exact trivial

end Token

namespace Lexeme

variable {first second : Option (Lexeme α)} {l : Lexeme α} {text rest : List Char} {c : Char}

/-- The longer of two lexemes is one of them; the second one only if the first is shorter. -/
theorem longer?_eq_some (h : longer? first second = some l) :
    first = some l ∨ (second = some l ∧ ∀ m, first = some m → m.length < l.length) := by
  unfold longer? at h
  split at h
  · split at h
    · rename_i m₁ m₂ hlt
      obtain rfl := Option.some.inj h
      refine Or.inr ⟨rfl, fun m hm => ?_⟩
      obtain rfl := Option.some.inj hm
      exact hlt
    · exact Or.inl h
  · exact Or.inl h
  · exact Or.inr ⟨h, fun m hm => by simp at hm⟩

/-- The digits after a point at the head of a text. -/
def fractionAt : List Char → List Char
  | '.' :: rest => rest.takeWhile Char.isDigit
  | _ => []

/-- The number at the head of a text after its sign. -/
def numberFrom [Numeral α] (negative : Bool) (unsigned : List Char) : Option (Lexeme α) :=
  let whole := unsigned.takeWhile Char.isDigit
  let fraction := fractionAt (unsigned.drop whole.length)
  if whole.isEmpty then none
  else some
    { token := .number
        (Numeral.ofDecimal negative (digitsValue (whole ++ fraction)) fraction.length)
      length := negative.toNat + whole.length + (if fraction.isEmpty then 0 else 1) +
        fraction.length }

theorem number?_minus [Numeral α] : number? (α := α) ('-' :: rest) = numberFrom true rest := rfl

theorem number?_of_ne [Numeral α] (hc : c ≠ '-') :
    number? (α := α) (c :: rest) = numberFrom false (c :: rest) := by
  unfold number?
  split
  rename_i negative unsigned hsplit
  have huns : (negative, unsigned) = (false, c :: rest) := by
    rw [← hsplit]
    split
    · rename_i heq
      exact absurd (List.cons.inj heq).1 hc
    · rfl
  obtain ⟨rfl, rfl⟩ := Prod.mk.inj huns
  rfl

/-- A number begins where a digit stands, and it has all digits that follow. -/
theorem number?_digits [Numeral α] (rest : List Char) (hc : c.isDigit = true) : ∃ l : Lexeme α,
    number? (c :: rest) = some l ∧ ((c :: rest).takeWhile Char.isDigit).length ≤ l.length := by
  have hne : c ≠ '-' := by
    rintro rfl
    simp at hc
  rw [number?_of_ne hne, numberFrom, if_neg (by simp [hc])]
  exact ⟨_, rfl, by dsimp only; omega⟩

theorem number?_sound [Numeral α] (h : number? text = some l) : l.token.Sound := by
  unfold number? at h
  split at h
  simp only at h
  split at h
  · simp at h
  · obtain rfl := Option.some.inj h
    exact trivial

theorem takeWhile_length_le {p q : Char → Bool} (h : ∀ d ∈ text.takeWhile p, q d = true) :
    (text.takeWhile p).length ≤ (text.takeWhile q).length := by
  induction text with
  | nil => simp
  | cons d text ih =>
    by_cases hp : p d = true
    · rw [List.takeWhile_cons_of_pos hp] at h ⊢
      rw [List.takeWhile_cons_of_pos (h d (by simp))]
      have := ih fun e he => h e (by simp [he])
      simpa using this
    · rw [List.takeWhile_cons_of_neg hp]
      simp

/-- A word that is not shorter than a number is not all digits. -/
theorem word?_sound [Numeral α] (h : word? text = some l)
    (hlonger : ∀ m : Lexeme α, number? text = some m → m.length < l.length) : l.token.Sound := by
  unfold word? at h
  split at h
  · simp at h
  · rename_i c rest
    split at h
    · rename_i hc
      obtain rfl := Option.some.inj h
      refine Token.ofWord_sound ⟨⟨c, ?_, hc⟩, ?_, ?_⟩
      · simp
      · simp only [String.toList_ofList, List.mem_cons, forall_eq_or_imp]
        refine ⟨by simp [isNamePart, hc], fun d hd => ?_⟩
        exact List.mem_takeWhile_imp hd
      · by_contra hall
        simp only [String.toList_ofList, not_exists, not_and, Bool.not_eq_false] at hall
        -- then the number at the head would have been as long
        obtain ⟨m, hm, hlen⟩ := number?_digits (α := α) rest (hall c (by simp))
        have hle := takeWhile_length_le (p := isNamePart) (q := Char.isDigit) fun d hd =>
          hall d (List.mem_cons_of_mem c hd)
        have hlt := hlonger m hm
        rw [List.takeWhile_cons_of_pos (hall c (by simp))] at hlen
        simp only [List.length_cons] at hlen hlt
        omega
    · simp at h

theorem atHead?_sound [Numeral α] (h : atHead? text = some l) : l.token.Sound := by
  unfold atHead? at h
  rcases longer?_eq_some h with h | ⟨h, hnumber⟩
  · exact number?_sound h
  rcases longer?_eq_some h with h | ⟨h, -⟩
  · exact word?_sound h hnumber
  rcases longer?_eq_some h with h | ⟨h, -⟩
  · unfold comment? at h
    split at h
    · obtain rfl := Option.some.inj h
      intro hmem
      have := List.mem_takeWhile_imp (by simpa using hmem)
      simp at this
    · simp at h
  rcases longer?_eq_some h with h | ⟨h, -⟩
  · unfold quoted? at h
    split at h
    · split at h
      · obtain rfl := Option.some.inj h
        exact trivial
      · simp at h
    · simp at h
  rcases longer?_eq_some h with h | ⟨h, -⟩
  · unfold hex? at h
    split at h
    · simp only at h
      split at h
      · simp at h
      · obtain rfl := Option.some.inj h
        exact trivial
    · simp at h
  · obtain ⟨⟨t, n⟩, hsymbol, rfl⟩ := Option.map_eq_some_iff.1 h
    exact Token.ofSymbol?_sound hsymbol

end Lexeme

theorem pieces_blank [Numeral α] {c : Char} {rest : List Char} (hc : Lexeme.isBlank c = true)
    (offset : ℕ) : pieces (α := α) offset (c :: rest) = pieces (offset + c.utf8Size) rest := by
  rw [pieces, if_pos hc]

end Schematic
