import Schematic.Proofs.Spelling

/-!
# The longest token

A token at the head of a text is the longest one there. Whether a longer one could begin there is
settled by the characters that follow, so a text that is cut off behind a token has the same token
at its head. Each kind of token is looked for by a reader of its own. All of them obey the same
laws, and the longer one of what two of them find obeys these laws again.

* `Lexeme.Greedy`: what is found lies within the text, it is found in every part of the text that
  holds it, and a longer text has nothing shorter.
* `Lexeme.Greedy.longer?`: the longer one of two.
* `Lexeme.greedy_atHead?`: the longest token at the head of a text.
-/

namespace Schematic

section Prefixes

variable {p : Char → Bool} {part text : List Char} {c : Char}

theorem prefix_cons_iff :
    part <+: c :: text ↔ part = [] ∨ ∃ rest, part = c :: rest ∧ rest <+: text := by
  constructor
  · intro h
    cases part with
    | nil => exact .inl rfl
    | cons d rest =>
      obtain ⟨rfl, hrest⟩ := List.cons_prefix_cons.1 h
      exact .inr ⟨rest, rfl, hrest⟩
  · rintro (rfl | ⟨rest, rfl, h⟩)
    · exact List.nil_prefix
    · exact List.cons_prefix_cons.2 ⟨rfl, h⟩

/-- A stretch of characters is the same in a part of a text that holds all of it. -/
theorem takeWhile_eq_of_part (h : part <+: text)
    (hlength : (text.takeWhile p).length ≤ part.length) : part.takeWhile p = text.takeWhile p := by
  induction part generalizing text with
  | nil =>
    have hnil : text.takeWhile p = [] := List.length_eq_zero_iff.1 (by simpa using hlength)
    rw [hnil]
    rfl
  | cons d part ih =>
    obtain ⟨rest, rfl⟩ := h
    by_cases hd : p d = true
    · simp only [List.cons_append, List.takeWhile_cons_of_pos hd, List.length_cons,
        Nat.add_le_add_iff_right] at hlength ⊢
      rw [ih (List.prefix_append part rest) hlength]
    · simp only [List.cons_append, List.takeWhile_cons_of_neg hd]

theorem length_takeWhile_le (h : part <+: text) :
    (part.takeWhile p).length ≤ (text.takeWhile p).length := by
  obtain ⟨rest, rfl⟩ := h
  have hle := (List.takeWhile_prefix p (l := part)).length_le
  rw [List.takeWhile_append]
  split
  · rw [List.length_append]
    omega
  · exact le_rfl

end Prefixes

namespace Lexeme

variable {α : Type} {f g : List Char → Option (Lexeme α)} {part text rest held : List Char}
  {l : Lexeme α} {read : ℕ}

/-- **A reader that takes as much as it can**, and nothing that it does not need. -/
structure Greedy (f : List Char → Option (Lexeme α)) : Prop where
  /-- What is found is not empty and lies within the text. -/
  within : ∀ {text l}, f text = some l → 0 < l.length ∧ l.length ≤ text.length
  /-- It is found in every part of the text that holds it. -/
  kept : ∀ {part text l}, part <+: text → f text = some l → l.length ≤ part.length →
    f part = some l
  /-- Where something is found in a part of the text, nothing shorter is found in all of it. -/
  grows : ∀ {part text l}, part <+: text → f part = some l →
    ∃ m, f text = some m ∧ l.length ≤ m.length

/-- **The longer one of what two readers find.** -/
theorem Greedy.longer? (hf : Greedy f) (hg : Greedy g) :
    Greedy fun text => Lexeme.longer? (f text) (g text) where
  within h := by
    rcases longer?_eq_some h with h | ⟨h, -⟩
    · exact hf.within h
    · exact hg.within h
  kept {part text l} hpart h hlength := by
    rcases longer?_eq_some h with hl | ⟨hl, hshorter⟩
    · -- the second reader finds nothing longer in the part, or it would in the text
      rw [hf.kept hpart hl hlength]
      refine longer?_eq_left fun m hm => ?_
      obtain ⟨m', hm', hle⟩ := hg.grows hpart hm
      simp only [hl, hm', Lexeme.longer?] at h
      split at h
      · obtain rfl := Option.some.inj h
        omega
      · omega
    · rw [hg.kept hpart hl hlength]
      cases hm : f part with
      | none => rfl
      | some m =>
        obtain ⟨m', hm', hle⟩ := hf.grows hpart hm
        have hlt := hshorter m' hm'
        exact if_pos (by omega)
  grows {part text l} hpart h := by
    have hfound : (∃ m, f text = some m ∧ l.length ≤ m.length) ∨
        ∃ m, g text = some m ∧ l.length ≤ m.length := by
      rcases longer?_eq_some h with h | ⟨h, -⟩
      · exact .inl (hf.grows hpart h)
      · exact .inr (hg.grows hpart h)
    unfold Lexeme.longer?
    split
    · rename_i m₁ m₂ h₁ h₂
      simp only [h₁, h₂, Option.some.injEq, exists_eq_left'] at hfound
      split
      · exact ⟨m₂, rfl, by omega⟩
      · exact ⟨m₁, rfl, by omega⟩
    · rename_i m h₁ h₂
      simpa [h₁, h₂] using hfound
    · rename_i h₁
      simpa [h₁] using hfound

/-! ### Words, colours and comments -/

/-- **A stretch of characters behind some first ones.** A word has one first character, a colour
its sign and a comment two slashes; a colour is none without a stretch. -/
theorem greedy_of_stretch (p : Char → Bool) (Lead Good : List Char → Prop)
    (token : List Char → List Char → Token α) {n : ℕ} (hn : 0 < n)
    (hlead : ∀ head, Lead head → head.length = n)
    (hgood : ∀ s t, Good s → s.length ≤ t.length → Good t)
    (hf : ∀ text l, f text = some l ↔ ∃ head rest, text = head ++ rest ∧ Lead head ∧
      Good (rest.takeWhile p) ∧
      l = ⟨token head (rest.takeWhile p), n + (rest.takeWhile p).length⟩) : Greedy f where
  within {text l} h := by
    obtain ⟨head, rest, rfl, hhead, -, rfl⟩ := (hf _ _).1 h
    have hle := (List.takeWhile_prefix p (l := rest)).length_le
    have hlength := hlead head hhead
    simp only [List.length_append]
    omega
  kept {part text l} hpart h hlength := by
    obtain ⟨head, rest, rfl, hhead, hg, rfl⟩ := (hf _ _).1 h
    have hheadlength := hlead head hhead
    simp only at hlength
    -- the part holds the first characters, and then all of the stretch
    obtain ⟨part, rfl⟩ := List.prefix_of_prefix_length_le (List.prefix_append head rest) hpart
      (by omega)
    rw [List.length_append] at hlength
    have hstretch := takeWhile_eq_of_part (p := p) ((List.prefix_append_right_inj head).1 hpart)
      (by omega)
    exact (hf _ _).2 ⟨head, part, rfl, hhead, by rwa [hstretch], by rw [hstretch]⟩
  grows {part text l} hpart h := by
    obtain ⟨head, part, rfl, hhead, hg, rfl⟩ := (hf _ _).1 h
    obtain ⟨rest, rfl⟩ := hpart
    have hle := length_takeWhile_le (p := p) (List.prefix_append part rest)
    have hg' := hgood _ _ hg hle
    exact ⟨_, (hf _ _).2 ⟨head, part ++ rest, List.append_assoc _ _ _, hhead, hg', rfl⟩,
      Nat.add_le_add_left hle n⟩

theorem greedy_word? : Greedy (word? (α := α)) := by
  refine greedy_of_stretch isNamePart (fun head => ∃ c, head = [c] ∧ isNameStart c = true)
    (fun _ => True) (fun head rest => .ofWord (String.ofList (head ++ rest)))
    Nat.one_pos ?_ (fun _ _ _ _ => trivial) fun text l => ?_
  · rintro head ⟨c, rfl, -⟩
    rfl
  · unfold word?
    constructor
    · intro h
      split at h
      · simp at h
      · rename_i c rest
        split at h
        · rename_i hc
          obtain rfl := Option.some.inj h
          exact ⟨[c], rest, rfl, ⟨c, rfl, hc⟩, trivial, by simp [Nat.add_comm]⟩
        · simp at h
    · rintro ⟨_, rest, rfl, ⟨c, rfl, hc⟩, -, rfl⟩
      simp [hc, Nat.add_comm]

theorem greedy_hex? : Greedy (hex? (α := α)) := by
  refine greedy_of_stretch Char.isAlphanum (fun head => head = ['#'])
    (fun digits => digits ≠ []) (fun _ digits => .hex (String.ofList ('#' :: digits)))
    Nat.one_pos ?_ ?_ fun text l => ?_
  · rintro head rfl
    rfl
  · intro s t hs hle ht
    subst ht
    exact hs (List.length_eq_zero_iff.1 (by simpa using hle))
  · unfold hex?
    constructor
    · intro h
      split at h
      · rename_i rest
        simp only at h
        split at h
        · simp at h
        · rename_i hne
          obtain rfl := Option.some.inj h
          exact ⟨['#'], rest, rfl, rfl, by simpa using hne, by simp [Nat.add_comm]⟩
      · simp at h
    · rintro ⟨_, rest, rfl, rfl, hne, rfl⟩
      simp [hne, Nat.add_comm]

theorem greedy_comment? : Greedy (comment? (α := α)) := by
  refine greedy_of_stretch (· ≠ '\n') (fun head => head = ['/', '/'])
    (fun _ => True) (fun _ text => .comment (String.ofList text))
    Nat.two_pos ?_ (fun _ _ _ _ => trivial) fun text l => ?_
  · rintro head rfl
    rfl
  · unfold comment?
    constructor
    · intro h
      split at h
      · rename_i rest
        obtain rfl := Option.some.inj h
        exact ⟨['/', '/'], rest, rfl, rfl, trivial, by simp [Nat.add_comm]⟩
      · simp at h
    · rintro ⟨_, rest, rfl, rfl, -, rfl⟩
      simp [Nat.add_comm]

/-! ### Numbers -/

theorem length_fractionAt_le (h : part <+: text) :
    (fractionAt part).length ≤ (fractionAt text).length := by
  unfold fractionAt
  split
  · rename_i rest
    obtain ⟨more, rfl⟩ := h
    exact length_takeWhile_le (List.prefix_append rest more)
  · simp

/-- A fraction is the same in a part of a text that holds all of it and the point before. -/
theorem fractionAt_eq_of_part (h : part <+: text)
    (hlength : fractionAt text = [] ∨ (fractionAt text).length < part.length) :
    fractionAt part = fractionAt text := by
  rcases hlength with hnil | hlt
  · have hle := length_fractionAt_le h
    rw [hnil] at hle ⊢
    exact List.length_eq_zero_iff.1 (by simpa using hle)
  · unfold fractionAt at hlt ⊢
    split at hlt
    · rename_i rest
      rcases prefix_cons_iff.1 h with rfl | ⟨part, rfl, hrest⟩
      · simp at hlt
      · exact takeWhile_eq_of_part hrest (by simpa using hlt)
    · rename_i hpoint
      split
      · rename_i rest
        obtain ⟨more, rfl⟩ := h
        exact absurd rfl (hpoint (rest ++ more))
      · rfl

/-- The length of a number after its sign: its digits, and a fraction with the point before. -/
def unsignedLength (text : List Char) : ℕ :=
  let whole := text.takeWhile Char.isDigit
  let fraction := fractionAt (text.drop whole.length)
  whole.length + (if fraction.isEmpty then 0 else 1) + fraction.length

variable [Numeral α]

/-- A number after its sign: it has at least one digit. -/
theorem numberFrom_eq_some_iff {negative : Bool} : numberFrom negative text = some l ↔
    text.takeWhile Char.isDigit ≠ [] ∧
      let whole := text.takeWhile Char.isDigit
      let fraction := fractionAt (text.drop whole.length)
      l = ⟨.number (Numeral.ofDecimal negative (digitsValue (whole ++ fraction)) fraction.length),
        negative.toNat + unsignedLength text⟩ := by
  have hlength : ∀ n k m : ℕ, negative.toNat + n + k + m = negative.toNat + (n + k + m) := by
    intro n k m
    omega
  unfold numberFrom unsignedLength
  simp only [List.isEmpty_iff, hlength]
  split
  · rename_i h
    simp only [h, reduceCtorEq, ne_eq, not_true_eq_false, false_and]
  · rename_i h
    simp only [h, ne_eq, not_false_eq_true, true_and, Option.some.injEq, eq_comm]

theorem unsignedLength_le (text : List Char) : unsignedLength text ≤ text.length := by
  have hwhole := (List.takeWhile_prefix Char.isDigit (l := text)).length_le
  have hfraction : (if (fractionAt (text.drop (text.takeWhile Char.isDigit).length)).isEmpty then 0
      else 1) + (fractionAt (text.drop (text.takeWhile Char.isDigit).length)).length ≤
      text.length - (text.takeWhile Char.isDigit).length := by
    rw [← List.length_drop]
    generalize text.drop (text.takeWhile Char.isDigit).length = rest
    unfold fractionAt
    split
    · rename_i rest
      have hle := (List.takeWhile_prefix Char.isDigit (l := rest)).length_le
      rw [List.length_cons]
      split <;> omega
    · simp
  unfold unsignedLength
  simp only
  omega

/-- A number is the same in a part of a text that holds all of it. -/
theorem numberFrom_eq_of_part {negative : Bool} (h : part <+: text)
    (hlength : unsignedLength text ≤ part.length) :
    numberFrom (α := α) negative part = numberFrom negative text := by
  unfold unsignedLength at hlength
  simp only at hlength
  have hwhole : part.takeWhile Char.isDigit = text.takeWhile Char.isDigit :=
    takeWhile_eq_of_part h (by omega)
  have hfraction : fractionAt (part.drop (text.takeWhile Char.isDigit).length) =
      fractionAt (text.drop (text.takeWhile Char.isDigit).length) := by
    refine fractionAt_eq_of_part (h.drop _) ?_
    by_cases hnil : fractionAt (text.drop (text.takeWhile Char.isDigit).length) = []
    · exact .inl hnil
    · rw [if_neg (by simpa using hnil)] at hlength
      rw [List.length_drop]
      exact .inr (by omega)
  unfold numberFrom
  simp only [hwhole, hfraction]

theorem unsignedLength_mono (h : part <+: text) : unsignedLength part ≤ unsignedLength text := by
  by_cases hwhole : (text.takeWhile Char.isDigit).length ≤ part.length
  · have hfraction := length_fractionAt_le (h.drop (text.takeWhile Char.isDigit).length)
    unfold unsignedLength
    rw [takeWhile_eq_of_part h hwhole]
    simp only [List.isEmpty_iff_length_eq_zero]
    split <;> split <;> omega
  · -- then the part is digits only, and these are fewer
    have hle := unsignedLength_le part
    unfold unsignedLength at hle ⊢
    simp only at hle ⊢
    omega

/-- The number at the head of a text begins behind its sign. -/
theorem number?_eq_numberFrom (text : List Char) : ∃ negative unsigned,
    text = (if negative then ['-'] else []) ++ unsigned ∧
      number? (α := α) text = numberFrom negative unsigned ∧
      ∀ part, part <+: text → part ≠ [] → ∃ rest, rest <+: unsigned ∧
        part = (if negative then ['-'] else []) ++ rest ∧
        number? (α := α) part = numberFrom negative rest := by
  cases text with
  | nil => exact ⟨false, [], rfl, rfl, fun part hpart hne => absurd (List.prefix_nil.1 hpart) hne⟩
  | cons c rest =>
    by_cases hc : c = '-'
    · subst hc
      refine ⟨true, rest, rfl, number?_minus, fun part hpart hne => ?_⟩
      rcases prefix_cons_iff.1 hpart with rfl | ⟨more, rfl, hmore⟩
      · exact absurd rfl hne
      · exact ⟨more, hmore, rfl, number?_minus⟩
    · refine ⟨false, c :: rest, rfl, number?_of_ne hc, fun part hpart hne => ?_⟩
      rcases prefix_cons_iff.1 hpart with rfl | ⟨more, rfl, hmore⟩
      · exact absurd rfl hne
      · exact ⟨c :: more, hpart, rfl, number?_of_ne hc⟩

theorem greedy_number? : Greedy (number? (α := α)) where
  within {text l} h := by
    obtain ⟨negative, unsigned, rfl, heq, -⟩ := number?_eq_numberFrom (α := α) text
    obtain ⟨hne, rfl⟩ := numberFrom_eq_some_iff.1 (heq ▸ h)
    have hle := unsignedLength_le unsigned
    have hpos : 0 < unsignedLength unsigned := by
      have := List.length_pos_iff.2 hne
      unfold unsignedLength
      simp only
      omega
    cases negative <;> simp <;> omega
  kept {part text l} hpart h hlength := by
    obtain ⟨negative, unsigned, rfl, heq, hparts⟩ := number?_eq_numberFrom (α := α) text
    obtain ⟨hne, hl⟩ := numberFrom_eq_some_iff.1 (heq ▸ h)
    have hpartne : part ≠ [] := by
      rintro rfl
      have := List.length_pos_iff.2 hne
      rw [hl] at hlength
      unfold unsignedLength at hlength
      simp only [List.length_nil] at hlength
      omega
    obtain ⟨rest, hrest, rfl, heq'⟩ := hparts part hpart hpartne
    rw [hl] at hlength
    have hunsigned : unsignedLength unsigned ≤ rest.length := by
      cases negative <;> simp at hlength <;> omega
    rw [heq', numberFrom_eq_of_part hrest hunsigned, ← heq, h]
  grows {part text l} hpart h := by
    obtain ⟨negative, unsigned, rfl, heq, hparts⟩ := number?_eq_numberFrom (α := α) text
    have hpartne : part ≠ [] := by
      rintro rfl
      simp [number?] at h
    obtain ⟨rest, hrest, rfl, heq'⟩ := hparts part hpart hpartne
    obtain ⟨hne, rfl⟩ := numberFrom_eq_some_iff.1 (heq' ▸ h)
    have hle := length_takeWhile_le (p := Char.isDigit) hrest
    have hmono := unsignedLength_mono hrest
    refine ⟨_, heq.trans (numberFrom_eq_some_iff.2 ⟨?_, rfl⟩), by simpa using hmono⟩
    intro hnil
    rw [hnil] at hle
    exact hne (List.length_eq_zero_iff.1 (by simpa using hle))

/-! ### Quoted texts and symbols -/

omit [Numeral α]

/-- **What a quoted text holds** is settled at its closing quote: the characters up to it are
enough, and what follows it does not matter. -/
theorem closing_spec (h : closing text = .ok (held, read)) :
    0 < read ∧ read ≤ text.length ∧
      ∀ rest, closing (text.take read ++ rest) = .ok (held, read) := by
  fun_induction closing text generalizing held read with
  | case1 rest =>
    obtain ⟨rfl, rfl⟩ : [] = held ∧ 1 = read := by simpa using h
    exact ⟨Nat.one_pos, by simp, fun rest => rfl⟩
  | case2 => simp at h
  | case3 c more hc held' read' heq ih =>
    obtain ⟨rfl, rfl⟩ : c :: held' = held ∧ read' + 2 = read := by simpa using h
    obtain ⟨hpos, hle, hclosing⟩ := ih heq
    refine ⟨by omega, by simpa using hle, fun rest => ?_⟩
    simp only [List.take_succ_cons, List.cons_append, closing, if_neg hc, hclosing rest]
  | case4 => simp at h
  | case5 => simp at h
  | case6 => simp at h
  | case7 c more hquote hescape hlone held' read' heq ih =>
    obtain ⟨rfl, rfl⟩ : c :: held' = held ∧ read' + 1 = read := by simpa using h
    obtain ⟨hpos, hle, hclosing⟩ := ih heq
    have hc : c ≠ '\\' := by
      rintro rfl
      cases more with
      | nil => exact hlone rfl rfl
      | cons d more => exact hescape d more rfl rfl
    refine ⟨by omega, by simpa using hle, fun rest => ?_⟩
    rw [List.take_succ_cons, List.cons_append, closing_cons (fun h => hquote h) hc, hclosing rest]
  | case8 => simp at h

theorem quoted?_eq_some_iff : quoted? text = some l ↔
    ∃ rest held read, text = '"' :: rest ∧ closing rest = .ok (held, read) ∧
      l = ⟨.quoted (String.ofList held), read + 1⟩ := by
  unfold quoted?
  constructor
  · intro h
    split at h
    · split at h
      · rename_i hclosing
        obtain rfl := Option.some.inj h
        exact ⟨_, _, _, rfl, hclosing, rfl⟩
      · simp at h
    · simp at h
  · rintro ⟨rest, held, read, rfl, hclosing, rfl⟩
    simp only [hclosing]

theorem greedy_quoted? : Greedy (quoted? (α := α)) where
  within h := by
    obtain ⟨rest, held, read, rfl, hclosing, rfl⟩ := quoted?_eq_some_iff.1 h
    obtain ⟨hpos, hle, -⟩ := closing_spec hclosing
    simp only [List.length_cons]
    omega
  kept {part text l} hpart h hlength := by
    obtain ⟨rest, held, read, rfl, hclosing, rfl⟩ := quoted?_eq_some_iff.1 h
    obtain ⟨-, hle, hspec⟩ := closing_spec hclosing
    rcases prefix_cons_iff.1 hpart with rfl | ⟨part, rfl, hrest⟩
    · simp at hlength
    · -- all that was read is there, whatever else
      have htake : rest.take read = part.take read := by
        obtain ⟨more, rfl⟩ := hrest
        rw [List.take_append_of_le_length (by simpa using hlength)]
      have hclosing' := hspec (part.drop read)
      rw [htake, List.take_append_drop] at hclosing'
      exact quoted?_eq_some_iff.2 ⟨part, held, read, rfl, hclosing', rfl⟩
  grows {part text l} hpart h := by
    obtain ⟨rest, held, read, rfl, hclosing, rfl⟩ := quoted?_eq_some_iff.1 h
    obtain ⟨-, -, hspec⟩ := closing_spec hclosing
    obtain ⟨more, rfl⟩ := hpart
    have hclosing' := hspec (rest.drop read ++ more)
    rw [← List.append_assoc, List.take_append_drop] at hclosing'
    exact ⟨_, quoted?_eq_some_iff.2 ⟨rest ++ more, held, read, rfl, hclosing', rfl⟩, le_rfl⟩

theorem ofSymbol?_within {t : Token α} {n : ℕ} (h : Token.ofSymbol? text = some (t, n)) :
    0 < n ∧ n ≤ text.length := by
  unfold Token.ofSymbol? at h
  split at h <;> simp only [Option.some.injEq, Prod.mk.injEq, reduceCtorEq] at h <;>
    obtain ⟨-, rfl⟩ := h <;> simp

/-- What symbols begin with. -/
def symbolChars : List Char :=
  ['{', '}', ':', ';', '.', '\n', '+', '-', '*', '/', '=', '<', '>']

theorem ofSymbol?_eq_none {c : Char} (hc : c ∉ symbolChars) :
    Token.ofSymbol? (α := α) (c :: rest) = none := by
  unfold Token.ofSymbol?
  split
  case h_17 => rfl
  all_goals
    rename_i heq
    obtain ⟨rfl, -⟩ := List.cons.inj heq
    exact absurd (by decide) hc

/-- **A symbol** has two characters where an equality sign follows one of three, and otherwise
one. -/
theorem ofSymbol?_cons (c : Char) (rest : List Char) : Token.ofSymbol? (α := α) (c :: rest) =
    if c ∈ ['<', '>', '='] ∧ rest.head? = some '=' then Token.ofSymbol? [c, '=']
    else Token.ofSymbol? [c] := by
  split
  · rename_i h
    obtain ⟨hc, hhead⟩ := h
    obtain ⟨more, rfl⟩ := List.head?_eq_some_iff.1 hhead
    simp only [List.mem_cons, List.not_mem_nil, or_false] at hc
    rcases hc with rfl | rfl | rfl <;> rfl
  · rename_i h
    conv_lhs => unfold Token.ofSymbol?
    split
    case h_1 heq | h_2 heq | h_3 heq =>
      obtain ⟨rfl, rfl⟩ := List.cons.inj heq
      simp at h
    case h_17 h₁ h₂ h₃ h₄ h₅ h₆ h₇ h₈ h₉ h₁₀ h₁₁ h₁₂ h₁₃ h₁₄ h₁₅ h₁₆ =>
      -- no symbol begins with this character, whatever follows
      refine (ofSymbol?_eq_none fun hc => ?_).symm
      simp only [symbolChars, List.mem_cons, List.not_mem_nil, or_false] at hc
      rcases hc with rfl | rfl | rfl | rfl | rfl | rfl | rfl | rfl | rfl | rfl | rfl | rfl | rfl
      exacts [h₄ _ rfl, h₅ _ rfl, h₆ _ rfl, h₇ _ rfl, h₈ _ rfl, h₉ _ rfl, h₁₀ _ rfl, h₁₁ _ rfl,
        h₁₂ _ rfl, h₁₃ _ rfl, h₁₄ _ rfl, h₁₅ _ rfl, h₁₆ _ rfl]
    all_goals
      rename_i heq
      obtain ⟨rfl, rfl⟩ := List.cons.inj heq
      rfl

theorem exists_ofSymbol?_pair {c : Char} (hc : c ∈ ['<', '>', '=']) :
    ∃ t, Token.ofSymbol? (α := α) [c, '='] = some (t, 2) := by
  simp only [List.mem_cons, List.not_mem_nil, or_false] at hc
  rcases hc with rfl | rfl | rfl <;> exact ⟨_, rfl⟩

theorem greedy_symbol? : Greedy (symbol? (α := α)) where
  within h := by
    obtain ⟨⟨t, n⟩, hsymbol, rfl⟩ := Option.map_eq_some_iff.1 h
    exact ofSymbol?_within hsymbol
  kept {part text l} hpart h hlength := by
    obtain ⟨⟨t, n⟩, hsymbol, rfl⟩ := Option.map_eq_some_iff.1 h
    have hpos := (ofSymbol?_within hsymbol).1
    simp only at hlength
    refine Option.map_eq_some_iff.2 ⟨(t, n), ?_, rfl⟩
    obtain ⟨more, rfl⟩ := hpart
    match part with
    | [] =>
      simp only [List.length_nil] at hlength
      omega
    | [c] =>
      rw [List.singleton_append, ofSymbol?_cons] at hsymbol
      split at hsymbol
      · -- a symbol of two characters is not in the part
        rename_i h
        obtain ⟨t', ht'⟩ := exists_ofSymbol?_pair (α := α) h.1
        obtain ⟨rfl, rfl⟩ := Prod.mk.inj (Option.some.inj (ht'.symm.trans hsymbol))
        simp at hlength
      · exact hsymbol
    | c :: d :: part =>
      rw [List.cons_append, ofSymbol?_cons] at hsymbol
      rw [ofSymbol?_cons]
      exact hsymbol
  grows {part text l} hpart h := by
    obtain ⟨⟨t, n⟩, hsymbol, rfl⟩ := Option.map_eq_some_iff.1 h
    obtain ⟨more, rfl⟩ := hpart
    match part with
    | [] => simp [Token.ofSymbol?] at hsymbol
    | [c] =>
      have hle := (ofSymbol?_within hsymbol).2
      rw [List.length_singleton] at hle
      by_cases h : c ∈ ['<', '>', '='] ∧ more.head? = some '='
      · obtain ⟨t', ht'⟩ := exists_ofSymbol?_pair (α := α) h.1
        have htext : Token.ofSymbol? (α := α) (c :: more) = some (t', 2) := by
          rw [ofSymbol?_cons, if_pos h, ht']
        exact ⟨⟨t', 2⟩, Option.map_eq_some_iff.2 ⟨_, htext, rfl⟩, by simp only; omega⟩
      · have htext : Token.ofSymbol? (α := α) (c :: more) = some (t, n) := by
          rw [ofSymbol?_cons, if_neg h, hsymbol]
        exact ⟨⟨t, n⟩, Option.map_eq_some_iff.2 ⟨_, htext, rfl⟩, le_rfl⟩
    | c :: d :: part =>
      rw [ofSymbol?_cons] at hsymbol
      refine ⟨⟨t, n⟩, Option.map_eq_some_iff.2 ⟨(t, n), ?_, rfl⟩, le_rfl⟩
      rw [List.cons_append, ofSymbol?_cons]
      exact hsymbol

variable [Numeral α]

/-- **The longest token** at the head of a text. -/
theorem greedy_atHead? : Greedy (atHead? (α := α)) :=
  greedy_number?.longer? <| greedy_word?.longer? <| greedy_comment?.longer? <|
    greedy_quoted?.longer? <| greedy_hex?.longer? greedy_symbol?

end Lexeme
end Schematic
