import Schematic.Proofs.Lexemes
import Schematic.Source.Equation

/-!
# Spelling tokens

How each token is written so that it is read back, and what may follow it there: a word
ends where no name goes on, a number also where no fraction goes on.

* `Stops`: what may follow a token.
* `Lexeme.atHead?_word`, `Lexeme.atHead?_number` and so on: the token at the head of a text
  that begins with its spelling.
* `Spells`: a text spells tokens.
-/

namespace Schematic

/-- A text that does not begin with a character of a kind. -/
def Stops (p : Char → Bool) (rest : List Char) : Prop := ∀ c ∈ rest.head?, p c = false

section Stops

variable {p q : Char → Bool} {w rest : List Char} {c : Char}

theorem stops_cons : Stops p (c :: rest) ↔ p c = false := by simp [Stops]

theorem Stops.mono (h : Stops p rest) (hqp : ∀ c, q c = true → p c = true) : Stops q rest := by
  intro c hc
  have := h c hc
  by_contra hq
  simp [hqp c (by simpa using hq)] at this

/-- A stretch of characters ends where the next one is of another kind. -/
theorem takeWhile_append_of_stops (hw : ∀ c ∈ w, p c = true) (hrest : Stops p rest) :
    (w ++ rest).takeWhile p = w := by
  rw [List.takeWhile_append_of_pos hw]
  cases rest with
  | nil => simp
  | cons c rest =>
    rw [List.takeWhile_cons_of_neg (by simp [stops_cons.1 hrest]), List.append_nil]

end Stops

namespace Lexeme

variable {α : Type} {c : Char} {w rest digits fraction : List Char}

/-! ### What no text of a kind begins with -/

/-- What a number goes on with. -/
def isNumberPart (c : Char) : Bool := c == '.' || isNamePart c

theorem isNamePart_of_isNameStart (h : isNameStart c = true) : isNamePart c = true := by
  simp [isNamePart, h]

theorem isNameStart_of_isDigit (h : c.isDigit = true) : isNameStart c = true := by
  have hascii : c.toNat < 0x80 := by
    simp only [Char.isDigit, Bool.and_eq_true, decide_eq_true_eq] at h
    have hle : c.val.toNat ≤ '9'.val.toNat := h.2
    have hnine : '9'.val.toNat = 57 := rfl
    simp only [Char.toNat]
    omega
  have hletter := Text.isLetterOrNumber_of_isAlphanum (by simp [Char.isAlphanum, h]) hascii
  simp [isNameStart, hletter]

/-- The characters of symbols, quotes, colours and comments begin no name. -/
theorem not_isNameStart (hc : c ∈ ['<', '>', '=', '{', '}', ':', ';', '.', '\n', '+', '-', '*', '/',
    '"', '#', ' ']) : isNameStart c = false := by
  simp only [List.mem_cons, List.not_mem_nil, or_false] at hc
  rcases hc with rfl | rfl | rfl | rfl | rfl | rfl | rfl | rfl | rfl | rfl | rfl | rfl | rfl | rfl |
    rfl | rfl <;> decide

theorem word?_eq_none (hc : isNameStart c = false) : word? (α := α) (c :: rest) = none := by
  simp [word?, hc]

theorem number?_eq_none [Numeral α] (hc : c.isDigit = false) (hminus : c ≠ '-') :
    number? (α := α) (c :: rest) = none := by
  rw [number?_of_ne hminus, numberFrom, if_pos (by simp [hc])]

/-- What begins with a name character is no comment, quoted text, colour or symbol. -/
theorem others_eq_none (hc : isNameStart c = true) :
    longer? (comment? (c :: rest)) (longer? (quoted? (c :: rest)) (longer? (hex? (c :: rest))
      (symbol? (c :: rest)))) = (none : Option (Lexeme α)) := by
  have hne : ∀ d ∈ ['<', '>', '=', '{', '}', ':', ';', '.', '\n', '+', '-', '*', '/', '"', '#', ' '],
      c ≠ d := by
    rintro d hd rfl
    simp [not_isNameStart hd] at hc
  simp only [List.mem_cons, List.not_mem_nil, or_false, forall_eq_or_imp, forall_eq] at hne
  have hcomment : comment? (α := α) (c :: rest) = none := by
    unfold comment?
    split <;> simp_all
  have hquoted : quoted? (α := α) (c :: rest) = none := by
    unfold quoted?
    split <;> simp_all
  have hhex : hex? (α := α) (c :: rest) = none := by
    unfold hex?
    split <;> simp_all
  have hsymbol : symbol? (α := α) (c :: rest) = none := by
    unfold symbol? Token.ofSymbol?
    split <;> simp_all
  rw [hcomment, hquoted, hhex, hsymbol]
  rfl

/-! ### Numbers -/

/-- The spelling of a number: a sign, digits and a fraction. -/
def numberText (negative : Bool) (digits fraction : List Char) : List Char :=
  (if negative then ['-'] else []) ++ digits ++ (if fraction.isEmpty then [] else '.' :: fraction)

theorem length_numberText (negative : Bool) (digits fraction : List Char) :
    (numberText negative digits fraction).length = negative.toNat + digits.length +
      (if fraction.isEmpty then 0 else 1) + fraction.length := by
  cases negative <;> cases fraction <;> simp [numberText] <;> omega

theorem numberFrom_append [Numeral α] (negative : Bool) (fraction : List Char) (hne : digits ≠ [])
    (hall : ∀ c ∈ digits ++ fraction, c.isDigit = true)
    (hrest : Stops (fun c => c == '.' || c.isDigit) rest) :
    numberFrom (α := α) negative
        (digits ++ ((if fraction.isEmpty then [] else '.' :: fraction) ++ rest)) =
      some ⟨.number (Numeral.ofDecimal negative (digitsValue (digits ++ fraction)) fraction.length),
        (numberText negative digits fraction).length⟩ := by
  have hstop : Stops Char.isDigit rest := hrest.mono fun c h => by simp [h]
  have hwhole : (digits ++ ((if fraction.isEmpty then [] else '.' :: fraction) ++ rest)).takeWhile
      Char.isDigit = digits := by
    refine takeWhile_append_of_stops (fun c hc => hall c (by simp [hc])) ?_
    cases fraction with
    | nil => exact hstop
    | cons f fraction => exact stops_cons.2 rfl
  rw [numberFrom, hwhole, List.drop_left, if_neg (by simpa using hne), length_numberText]
  cases fraction with
  | nil =>
    have hnone : fractionAt rest = [] := by
      unfold fractionAt
      split
      · have := stops_cons.1 hrest
        simp at this
      · rfl
    simp [hnone]
  | cons f fraction =>
    have hfraction : (f :: fraction ++ rest).takeWhile Char.isDigit = f :: fraction :=
      takeWhile_append_of_stops (fun c hc => hall c (by simp at hc ⊢; tauto)) hstop
    have hpoint : fractionAt ('.' :: (f :: fraction ++ rest)) = f :: fraction := hfraction
    simp only [List.isEmpty_cons, List.cons_append] at hpoint ⊢
    simp [hpoint]

theorem longer?_none (second : Option (Lexeme α)) : longer? none second = second := rfl

theorem longer?_eq_left {first : Lexeme α} {second : Option (Lexeme α)}
    (h : ∀ m, second = some m → m.length ≤ first.length) :
    longer? (some first) second = some first := by
  cases second with
  | none => rfl
  | some m => exact if_neg (by have := h m rfl; omega)

/-- A word at the head of a text is as long as name characters follow. -/
theorem length_word? {l : Lexeme α} (h : word? (c :: rest) = some l) :
    l.length = ((c :: rest).takeWhile isNamePart).length := by
  by_cases hc : isNameStart c = true
  · rw [word?, if_pos hc] at h
    obtain rfl := Option.some.inj h
    rw [List.takeWhile_cons_of_pos (isNamePart_of_isNameStart hc)]
  · rw [Bool.not_eq_true] at hc
    rw [word?_eq_none hc] at h
    simp at h

/-- **A number** is read back from its spelling. -/
theorem atHead?_number [Numeral α] (negative : Bool) (hne : digits ≠ [])
    (hall : ∀ c ∈ digits ++ fraction, c.isDigit = true) (hrest : Stops isNumberPart rest) :
    atHead? (α := α) (numberText negative digits fraction ++ rest) =
      some ⟨.number (Numeral.ofDecimal negative (digitsValue (digits ++ fraction)) fraction.length),
        (numberText negative digits fraction).length⟩ := by
  have hfrom := numberFrom_append (α := α) negative fraction hne hall (hrest.mono fun c hc => by
    rcases Bool.or_eq_true _ _ ▸ hc with h | h
    · simp [isNumberPart, h]
    · simp [isNumberPart, isNamePart, isNameStart_of_isDigit h])
  obtain ⟨d, digits, rfl⟩ := List.exists_cons_of_ne_nil hne
  have hd : d.isDigit = true := hall d (by simp)
  cases negative with
  | true =>
    have htext : numberText true (d :: digits) fraction ++ rest =
        '-' :: (d :: digits ++ ((if fraction.isEmpty then [] else '.' :: fraction) ++ rest)) := by
      simp [numberText]
    rw [htext, atHead?, number?_minus, hfrom, word?_eq_none (by decide)]
    refine longer?_eq_left fun m hm => ?_
    -- all else that a minus can begin is the symbol itself
    obtain rfl : (⟨.minus, 1⟩ : Lexeme α) = m := Option.some.inj hm
    simp only [length_numberText, List.length_cons]
    omega
  | false =>
    have htext : numberText false (d :: digits) fraction ++ rest =
        d :: (digits ++ ((if fraction.isEmpty then [] else '.' :: fraction) ++ rest)) := by
      simp [numberText]
    -- the digits could be a name, but it would end at the point at the latest
    have hword : (d :: digits ++ ((if fraction.isEmpty then [] else '.' :: fraction) ++
        rest)).takeWhile isNamePart = d :: digits := by
      refine takeWhile_append_of_stops (fun c hc => isNamePart_of_isNameStart
        (isNameStart_of_isDigit (hall c (List.mem_append_left _ hc)))) ?_
      cases fraction with
      | nil => exact hrest.mono fun c hc => by simp [isNumberPart, hc]
      | cons f fraction => exact stops_cons.2 (by decide)
    rw [List.cons_append] at hfrom
    rw [htext, atHead?, number?_of_ne (by rintro rfl; simp at hd), hfrom,
      others_eq_none (isNameStart_of_isDigit hd)]
    refine longer?_eq_left fun m hm => ?_
    rcases longer?_eq_some hm with hm | ⟨hm, -⟩
    · rw [length_word? hm, ← List.cons_append, hword, length_numberText]
      simp only [List.length_cons]
      omega
    · simp at hm

/-! ### Words -/

/-- A text that is not of one kind has a first character of another kind. -/
theorem exists_first_not {p : Char → Bool} (h : ∃ c ∈ w, p c = false) :
    ∃ u e v, w = u ++ e :: v ∧ (∀ c ∈ u, p c = true) ∧ p e = false := by
  induction w with
  | nil => simp at h
  | cons c w ih =>
    cases hc : p c with
    | false => exact ⟨[], c, w, rfl, by simp, hc⟩
    | true =>
      have hw : ∃ d ∈ w, p d = false := by
        obtain ⟨d, hd, hp⟩ := h
        rcases List.mem_cons.1 hd with rfl | hd
        · simp [hc] at hp
        · exact ⟨d, hd, hp⟩
      obtain ⟨u, e, v, rfl, hu, he⟩ := ih hw
      exact ⟨c :: u, e, v, rfl, by simpa [hc] using hu, he⟩

/-- A number at the head of a word is shorter: it ends before the first character that is
no digit, which is no point. -/
theorem number?_lt_word [Numeral α] (hw : IsWord w) (rest : List Char) {m : Lexeme α}
    (hm : number? (w ++ rest) = some m) : m.length < w.length := by
  -- `e` is the first character of the word that is no digit
  obtain ⟨u, e, v, rfl, hu, he⟩ := exists_first_not hw.notNumber
  have hpart : isNamePart e = true := hw.parts e (by simp)
  have hpoint : e ≠ '.' := by
    rintro rfl
    revert hpart
    decide
  obtain ⟨c, hc, hstart⟩ := hw.start
  have hminus : c ≠ '-' := by
    rintro rfl
    simp [not_isNameStart] at hstart
  -- a word that begins with `e` begins no number; otherwise the number is `u`
  cases u with
  | nil =>
    obtain rfl : e = c := by simpa using hc
    rw [List.nil_append, List.cons_append, number?_eq_none he hminus] at hm
    simp at hm
  | cons d u =>
    obtain rfl : d = c := by simpa using hc
    have hstop : Stops (fun c => c == '.' || c.isDigit) (e :: v ++ rest) :=
      stops_cons.2 (by simp [he, hpoint])
    have hfrom := numberFrom_append (α := α) false [] (List.cons_ne_nil d u) (by simpa using hu) hstop
    simp only [List.isEmpty_nil, if_true, List.nil_append, List.cons_append] at hfrom
    simp only [List.append_assoc, List.cons_append] at hm
    rw [number?_of_ne hminus, hfrom] at hm
    obtain rfl := Option.some.inj hm
    simp [length_numberText]

/-- **A word** is read back where no name goes on. -/
theorem atHead?_word [Numeral α] (hw : IsWord w) (hrest : Stops isNamePart rest) :
    atHead? (α := α) (w ++ rest) = some ⟨.ofWord (String.ofList w), w.length⟩ := by
  obtain ⟨c, hc, hstart⟩ := hw.start
  obtain ⟨w, rfl⟩ : ∃ w', w = c :: w' := by
    cases w with
    | nil => simp at hc
    | cons d w => exact ⟨w, by simpa using hc⟩
  have htake : (w ++ rest).takeWhile isNamePart = w :=
    takeWhile_append_of_stops (fun d hd => hw.parts d (by simp [hd])) hrest
  have hword : word? (α := α) (c :: (w ++ rest)) =
      some ⟨.ofWord (String.ofList (c :: w)), (c :: w).length⟩ := by
    rw [word?, if_pos hstart, htake]
  have hnumber : ∀ m, number? (α := α) (c :: (w ++ rest)) = some m →
      m.length < (c :: w).length := fun m hm =>
    number?_lt_word hw rest hm
  rw [List.cons_append, atHead?, others_eq_none hstart, hword]
  -- a number at the head is shorter, so the word goes before it
  cases hm : number? (α := α) (c :: (w ++ rest)) with
  | none => rfl
  | some m => exact if_pos (hnumber m hm)

/-! ### Comments, quoted texts, colours and symbols -/

/-- **A comment** is read back where its line ends. -/
theorem atHead?_comment [Numeral α] {text : List Char} (htext : '\n' ∉ text)
    (hrest : Stops (· ≠ '\n') rest) :
    atHead? (α := α) ('/' :: '/' :: text ++ rest) =
      some ⟨.comment (String.ofList text), ('/' :: '/' :: text).length⟩ := by
  have htake : (text ++ rest).takeWhile (· ≠ '\n') = text := by
    refine takeWhile_append_of_stops (fun c hc => ?_) hrest
    simp only [decide_eq_true_eq]
    rintro rfl
    exact htext hc
  have hcomment : comment? (α := α) ('/' :: '/' :: (text ++ rest)) =
      some ⟨.comment (String.ofList text), text.length + 2⟩ := by
    rw [comment?, htake]
  rw [List.cons_append, List.cons_append, atHead?, number?_eq_none (by decide) (by decide),
    word?_eq_none (by decide), hcomment, longer?_none, longer?_none]
  refine longer?_eq_left fun m hm => ?_
  obtain rfl : (⟨.slash, 1⟩ : Lexeme α) = m := Option.some.inj hm
  simp

/-- A character that is neither a quote nor a backslash is held as it stands. -/
theorem closing_cons (hquote : c ≠ '"') (hescape : c ≠ '\\') :
    closing (c :: rest) = match closing rest with
      | .ok (held, read) => .ok (c :: held, read + 1)
      | .error read => .error (read + 1) := by
  conv_lhs => unfold closing
  split
  · rename_i heq
    exact absurd (List.cons.inj heq).1 hquote
  · rename_i heq
    exact absurd (List.cons.inj heq).1 hescape
  · rename_i heq
    exact absurd (List.cons.inj heq).1 hescape
  · rename_i heq
    simp at heq
  · rename_i heq
    obtain ⟨rfl, rfl⟩ := List.cons.inj heq
    rfl

/-- What is escaped is held again up to the closing quote. -/
theorem closing_escape (text rest : List Char) :
    closing (Text.escape text ++ '"' :: rest) = .ok (text, (Text.escape text).length + 1) := by
  induction text with
  | nil => rfl
  | cons c text ih =>
    rw [Text.escape]
    split
    · rename_i hc
      have hne : c ≠ '\n' := by
        rintro rfl
        simp at hc
      simp [closing, hne, ih]
    · rename_i hc
      rw [not_or] at hc
      rw [List.cons_append, closing_cons hc.1 hc.2, ih]
      rfl

/-- **A quoted text** is read back whatever follows. -/
theorem atHead?_quoted [Numeral α] (text : String) (rest : List Char) :
    atHead? (α := α) ((Text.quote text).toList ++ rest) =
      some ⟨.quoted text, (Text.quote text).toList.length⟩ := by
  have hquoted : quoted? (α := α) ('"' :: (Text.escape text.toList ++ '"' :: rest)) =
      some ⟨.quoted text, (Text.escape text.toList).length + 2⟩ := by
    rw [quoted?, closing_escape]
    simp
  have htext : (Text.quote text).toList ++ rest =
      '"' :: (Text.escape text.toList ++ '"' :: rest) := by
    simp [Text.quote]
  rw [htext, atHead?, number?_eq_none (by decide) (by decide), word?_eq_none (by decide), hquoted]
  simp [longer?, comment?, hex?, symbol?, Token.ofSymbol?, Text.quote]

/-- **A colour** is read back where no letter or digit follows. -/
theorem atHead?_hex [Numeral α] (hne : digits ≠ []) (hall : ∀ c ∈ digits, c.isAlphanum = true)
    (hrest : Stops Char.isAlphanum rest) :
    atHead? (α := α) ('#' :: digits ++ rest) =
      some ⟨.hex (String.ofList ('#' :: digits)), ('#' :: digits).length⟩ := by
  have hhex : hex? (α := α) ('#' :: (digits ++ rest)) =
      some ⟨.hex (String.ofList ('#' :: digits)), digits.length + 1⟩ := by
    rw [hex?, takeWhile_append_of_stops hall hrest]
    simp [hne]
  rw [List.cons_append, atHead?, number?_eq_none (by decide) (by decide),
    word?_eq_none (by decide), hhex]
  simp [longer?, comment?, quoted?, symbol?, Token.ofSymbol?]

end Lexeme

/-- The token of an operation. -/
def Operation.token {α : Type} : Operation → Token α
  | add => .plus
  | subtract => .minus
  | multiply => .star
  | divide => .slash

/-- The token of a relation. Of the two spellings of equality the longer one is written. -/
def Relation.token {α : Type} : Relation → Token α
  | less => .less
  | lessOrEqual => .lessOrEqual
  | equal => .equalEqual
  | greaterOrEqual => .greaterOrEqual
  | greater => .greater

/-- A blank or a line break comes next. -/
def Parted (rest : List Char) : Prop := ∃ c after, rest = c :: after ∧ (c = ' ' ∨ c = '\n')

namespace Lexeme

variable {α : Type} [Numeral α] {c : Char} {rest : List Char}

/-- A blank would keep a symbol from growing, and so does a line break. -/
theorem atHead?_operation (op : Operation) (h : Parted rest) :
    atHead? (α := α) (op.text.toList ++ rest) = some ⟨op.token, op.text.toList.length⟩ := by
  obtain ⟨c, after, rfl, rfl | rfl⟩ := h <;> cases op <;> rfl

theorem atHead?_relation (r : Relation) (h : Parted rest) :
    atHead? (α := α) (r.text.toList ++ rest) = some ⟨r.token, r.text.toList.length⟩ := by
  obtain ⟨c, after, rfl, rfl | rfl⟩ := h <;> cases r <;> rfl

theorem atHead?_blank (hc : isBlank c = true) : atHead? (α := α) (c :: rest) = none := by
  simp only [isBlank, Bool.or_eq_true, beq_iff_eq] at hc
  rcases hc with (rfl | rfl) | rfl <;> rfl

end Lexeme

section Spells

variable {α : Type} [Numeral α]

/-- **A text spells tokens**: its pieces are these tokens, wherever the text stands. -/
def Spells (text : List Char) (tokens : List (Token α)) : Prop :=
  ∀ offset, (pieces offset text).map (·.value) = tokens.map .token

variable {w rest : List Char} {t : Token α} {ts : List (Token α)}

theorem spells_nil : Spells (α := α) [] [] := by
  intro offset
  rw [pieces]
  rfl

/-- A blank before a text changes nothing. -/
theorem Spells.blank (h : Spells rest ts) : Spells (' ' :: rest) ts := by
  intro offset
  rw [pieces_blank rfl]
  exact h _

/-- The token that a text begins with is its first piece. -/
theorem pieces_append (hne : w ≠ []) (hw : Lexeme.atHead? (w ++ rest) = some ⟨t, w.length⟩)
    (offset : ℕ) : pieces offset (w ++ rest) =
      ⟨.token t, ⟨offset, offset + byteLength w⟩⟩ :: pieces (offset + byteLength w) rest := by
  obtain ⟨c, w, rfl⟩ := List.exists_cons_of_ne_nil hne
  rw [List.cons_append] at hw ⊢
  -- a blank begins no token, so it cannot be the first character of the spelling
  cases hc : Lexeme.isBlank c with
  | true =>
    rw [Lexeme.atHead?_blank hc] at hw
    simp at hw
  | false =>
    rw [pieces, hc, hw]
    simp

/-- **A spelling before a text** adds its token. -/
theorem Spells.cons (h : Spells rest ts) (hne : w ≠ [])
    (hw : Lexeme.atHead? (w ++ rest) = some ⟨t, w.length⟩) : Spells (w ++ rest) (t :: ts) := by
  intro offset
  rw [pieces_append hne hw, List.map_cons, h, List.map_cons]

omit [Numeral α] in
/-- Where all pieces are tokens, none of them are set aside. -/
theorem tokensOf_of_forall {all : List (Located (Piece α))}
    (h : all.map (·.value) = ts.map .token) :
    straysOf all = [] ∧ (tokensOf all).map (·.value) = ts := by
  induction all generalizing ts with
  | nil =>
    obtain rfl := List.map_eq_nil_iff.1 h.symm
    exact ⟨rfl, rfl⟩
  | cons p all ih =>
    obtain ⟨t, ts, rfl, ht, hts⟩ := List.map_eq_cons_iff.1 h.symm
    obtain ⟨hstrays, htokens⟩ := ih hts.symm
    obtain ⟨piece, span⟩ := p
    obtain rfl : .token t = piece := ht
    exact ⟨hstrays, congrArg (t :: ·) htokens⟩

/-- **The tokens that a source spells** are its tokens. -/
theorem Spells.lex {source : String} (h : Spells source.toList ts) :
    ∃ tokens, lex source = .ok tokens ∧ tokens.map (·.value) = ts := by
  obtain ⟨hstrays, htokens⟩ := tokensOf_of_forall (h 0)
  refine ⟨tokensOf (pieces 0 source.toList), ?_, htokens⟩
  simp only [Schematic.lex, hstrays, List.isEmpty_nil, if_true]

end Spells

end Schematic
