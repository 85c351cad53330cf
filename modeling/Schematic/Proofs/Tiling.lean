import Schematic.Proofs.Greedy

/-!
# Tokens in their places

A source is made up of its tokens and the blanks between them. Each token stands where its span
says: the span cuts the characters of the token out of the source, and these alone are read as
this token. Where a source has pieces that are no tokens, these stand in their places too.

* `Span.Cuts`, `Span.InOrder`: what a span cuts out of a text, and spans one behind the other.
* `Tiles`: values in their places, with blanks between them.
* `pieces_tiles`: the pieces of a text make it up.
* `Heads.spelling`: the characters of a token that is spelled in one way only.
* `lex_eq_ok_iff`: the tokens of a source are those that make it up.
* `lex_sound`: all of them are sound.
* `lex_tiles`: what the spans of a source are.
-/

namespace Schematic

/-! ### Spans and texts -/

namespace Span

/-- A byte that a span holds. -/
def Holds (s : Span) (i : ℕ) : Prop := s.start ≤ i ∧ i < s.stop

/-- **What a span cuts out of a source.** The span begins and ends between characters. -/
def Cuts (s : Span) (source piece : String) : Prop :=
  ∃ before after, source = before ++ piece ++ after ∧ before.utf8ByteSize = s.start ∧
    before.utf8ByteSize + piece.utf8ByteSize = s.stop

/-- **Spans one behind the other** within a larger one. None of them is empty. -/
structure InOrder (outer : Span) (spans : List Span) : Prop where
  nonempty : ∀ s ∈ spans, s.start < s.stop
  within : ∀ s ∈ spans, outer.start ≤ s.start ∧ s.stop ≤ outer.stop
  apart : spans.Pairwise fun s s' => s.start < s'.start ∧ s.stop ≤ s'.start

variable {s outer outer' : Span} {spans part : List Span}

theorem InOrder.nil (outer : Span) : InOrder outer [] where
  nonempty := by simp
  within := by simp
  apart := .nil

theorem InOrder.sublist (h : InOrder outer spans) (hpart : part.Sublist spans) :
    InOrder outer part where
  nonempty s hs := h.nonempty s (hpart.subset hs)
  within s hs := h.within s (hpart.subset hs)
  apart := h.apart.sublist hpart

theorem InOrder.mono (h : InOrder outer spans) (hstart : outer'.start ≤ outer.start)
    (hstop : outer.stop ≤ outer'.stop) : InOrder outer' spans where
  nonempty := h.nonempty
  within s hs := ⟨hstart.trans (h.within s hs).1, (h.within s hs).2.trans hstop⟩
  apart := h.apart

/-- A first span, and the others behind it. -/
theorem inOrder_cons : InOrder outer (s :: spans) ↔
    s.start < s.stop ∧ (outer.start ≤ s.start ∧ s.stop ≤ outer.stop) ∧
      InOrder ⟨s.stop, outer.stop⟩ spans := by
  constructor
  · intro h
    obtain ⟨hne, hnonempty⟩ := List.forall_mem_cons.1 h.nonempty
    obtain ⟨hin, hwithin⟩ := List.forall_mem_cons.1 h.within
    obtain ⟨hfirst, hapart⟩ := List.pairwise_cons.1 h.apart
    exact ⟨hne, hin, hnonempty, fun t ht => ⟨(hfirst t ht).2, (hwithin t ht).2⟩, hapart⟩
  · rintro ⟨hne, hin, h⟩
    have hbehind : ∀ t ∈ spans, s.stop ≤ t.start := fun t ht => (h.within t ht).1
    refine ⟨List.forall_mem_cons.2 ⟨hne, h.nonempty⟩, List.forall_mem_cons.2 ⟨hin, fun t ht => ?_⟩,
      List.pairwise_cons.2 ⟨fun t ht => ⟨hne.trans_le (hbehind t ht), hbehind t ht⟩, h.apart⟩⟩
    have hle := hbehind t ht
    exact ⟨by omega, (h.within t ht).2⟩

end Span

theorem utf8ByteSize_ofList (cs : List Char) : (String.ofList cs).utf8ByteSize = byteLength cs := by
  induction cs with
  | nil => rfl
  | cons c cs ih =>
    rw [String.ofList_cons, String.utf8ByteSize_append, String.utf8ByteSize_singleton, ih,
      byteLength]

theorem byteLength_toList (text : String) : byteLength text.toList = text.utf8ByteSize := by
  rw [← utf8ByteSize_ofList, String.ofList_toList]

/-- Of two beginnings of a text with as many bytes, both are the same. -/
theorem eq_of_byteLength_eq {left left' right right' : List Char}
    (h : left ++ right = left' ++ right') (hlength : byteLength left = byteLength left') :
    left = left' ∧ right = right' := by
  induction left generalizing left' with
  | nil =>
    cases left' with
    | nil => exact ⟨rfl, h⟩
    | cons c left' =>
      have hpos := byteLength_pos (List.cons_ne_nil c left')
      simp only [byteLength] at hlength hpos
      omega
  | cons c left ih =>
    cases left' with
    | nil =>
      have hpos := byteLength_pos (List.cons_ne_nil c left)
      simp only [byteLength] at hlength hpos
      omega
    | cons d left' =>
      obtain ⟨rfl, hrest⟩ := List.cons.inj h
      simp only [byteLength, Nat.add_left_cancel_iff] at hlength
      obtain ⟨rfl, rfl⟩ := ih hrest hlength
      exact ⟨rfl, rfl⟩

namespace Span

variable {s : Span} {source piece piece' : String}

theorem cuts_iff : s.Cuts source piece ↔ ∃ left right,
    source.toList = left ++ piece.toList ++ right ∧ byteLength left = s.start ∧
      s.start + byteLength piece.toList = s.stop := by
  constructor
  · rintro ⟨before, after, rfl, hstart, hstop⟩
    refine ⟨before.toList, after.toList, by simp, ?_, ?_⟩
    · rw [byteLength_toList, hstart]
    · rw [byteLength_toList, ← hstart, hstop]
  · rintro ⟨left, right, htext, hstart, hstop⟩
    refine ⟨String.ofList left, String.ofList right, ?_, ?_, ?_⟩
    · rw [← String.toList_inj, htext]
      simp
    · rw [utf8ByteSize_ofList, hstart]
    · rw [utf8ByteSize_ofList, hstart, ← byteLength_toList, hstop]

/-- A span is as long as what it cuts out. -/
theorem Cuts.stop_eq (h : s.Cuts source piece) : s.stop = s.start + piece.utf8ByteSize := by
  obtain ⟨before, after, -, hstart, hstop⟩ := h
  omega

/-- A span cuts out one text only. -/
theorem Cuts.unique (h : s.Cuts source piece) (h' : s.Cuts source piece') : piece = piece' := by
  obtain ⟨left, right, htext, hstart, hstop⟩ := cuts_iff.1 h
  obtain ⟨left', right', htext', hstart', hstop'⟩ := cuts_iff.1 h'
  rw [htext, List.append_assoc, List.append_assoc] at htext'
  obtain ⟨rfl, hrest⟩ := eq_of_byteLength_eq htext' (hstart.trans hstart'.symm)
  obtain ⟨hpiece, -⟩ := eq_of_byteLength_eq hrest (by omega)
  exact String.toList_inj.1 hpiece

end Span

/-! ### Values in their places -/

/-- **Values one behind the other**, with blanks between them, in a text that starts at a byte.
Which characters a value may be written with, and before what, is given by `P`. -/
inductive Tiles {β : Type} (P : List Char → List Char → β → Prop) :
    ℕ → List Char → List (Located β) → Prop
  | nil (offset : ℕ) : Tiles P offset [] []
  | blank {offset : ℕ} {c : Char} {rest : List Char} {vs : List (Located β)}
    (hc : Lexeme.isBlank c = true) (h : Tiles P (offset + c.utf8Size) rest vs) :
    Tiles P offset (c :: rest) vs
  | value {offset : ℕ} {w rest : List Char} {b : β} {vs : List (Located β)} (hne : w ≠ [])
    (hb : P w rest b) (h : Tiles P (offset + byteLength w) rest vs) :
    Tiles P offset (w ++ rest) (⟨b, ⟨offset, offset + byteLength w⟩⟩ :: vs)

section Tiles

variable {β : Type} {P : List Char → List Char → β → Prop} {offset : ℕ} {text : List Char}
  {v : Located β} {vs : List (Located β)}

/-- Blanks are single bytes. -/
theorem utf8Size_blank {c : Char} (hc : Lexeme.isBlank c = true) : c.utf8Size = 1 := by
  simp only [Lexeme.isBlank, Bool.or_eq_true, beq_iff_eq] at hc
  rcases hc with (rfl | rfl) | rfl <;> rfl

/-- **Values in their places stand one behind the other**, within the text. -/
theorem Tiles.inOrder (h : Tiles P offset text vs) :
    Span.InOrder ⟨offset, offset + byteLength text⟩ (vs.map (·.span)) := by
  induction h with
  | nil offset => exact .nil _
  | blank hc h ih =>
    rw [byteLength, ← Nat.add_assoc]
    exact ih.mono (Nat.le_add_right _ _) le_rfl
  | @value offset w rest b vs hne hb h ih =>
    have hpos := byteLength_pos hne
    rw [byteLength_append, ← Nat.add_assoc]
    refine Span.inOrder_cons.2 ⟨?_, ⟨le_rfl, ?_⟩, ih⟩
    · simpa using hpos
    · exact Nat.le_add_right _ _

/-- **Each value is written** where its span is. -/
theorem Tiles.exists_word (h : Tiles P offset text vs) (hv : v ∈ vs) : ∃ left w right,
    text = left ++ w ++ right ∧ offset + byteLength left = v.span.start ∧
      v.span.start + byteLength w = v.span.stop ∧ w ≠ [] ∧ P w right v.value := by
  induction h with
  | nil offset => simp at hv
  | @blank offset c rest vs hc h ih =>
    obtain ⟨left, w, right, rfl, hstart, hstop, hw⟩ := ih hv
    refine ⟨c :: left, w, right, rfl, ?_, hstop, hw⟩
    rw [byteLength, ← hstart]
    omega
  | @value offset w rest b vs hne hb h ih =>
    rcases List.mem_cons.1 hv with rfl | hv
    · exact ⟨[], w, rest, rfl, rfl, rfl, hne, hb⟩
    · obtain ⟨left, w', right, rfl, hstart, hstop, hw⟩ := ih hv
      refine ⟨w ++ left, w', right, by simp, ?_, hstop, hw⟩
      rw [byteLength_append, ← hstart]
      omega

/-- **What is no part of a value is a blank.** -/
theorem Tiles.exists_blank (h : Tiles P offset text vs) {i : ℕ} (hle : offset ≤ i)
    (hlt : i < offset + byteLength text) (hout : ∀ v ∈ vs, ¬ v.span.Holds i) : ∃ left c right,
    text = left ++ c :: right ∧ offset + byteLength left = i ∧ Lexeme.isBlank c = true := by
  induction h with
  | nil offset =>
    simp only [byteLength] at hlt
    omega
  | @blank offset c rest vs hc h ih =>
    have hsize := utf8Size_blank hc
    simp only [byteLength] at hlt
    by_cases hi : i = offset
    · exact ⟨[], c, rest, rfl, hi.symm, hc⟩
    · obtain ⟨left, d, right, rfl, hstart, hd⟩ := ih (by omega) (by omega) hout
      refine ⟨c :: left, d, right, rfl, ?_, hd⟩
      rw [byteLength, ← hstart]
      omega
  | @value offset w rest b vs hne hb h ih =>
    obtain ⟨hfirst, hout⟩ := List.forall_mem_cons.1 hout
    -- the byte is not in the first value, so it comes after it
    have hafter : offset + byteLength w ≤ i := by
      by_contra hi
      exact hfirst ⟨hle, by simpa using hi⟩
    rw [byteLength_append] at hlt
    obtain ⟨left, c, right, rfl, hstart, hc⟩ := ih hafter (by omega) hout
    refine ⟨w ++ left, c, right, by simp, ?_, hc⟩
    rw [byteLength_append, ← hstart]
    omega

/-! #### In a source -/

variable {source : String}

theorem Tiles.inOrder_source (h : Tiles P 0 source.toList vs) :
    Span.InOrder ⟨0, source.utf8ByteSize⟩ (vs.map (·.span)) := by
  have hinOrder := h.inOrder
  rwa [Nat.zero_add, byteLength_toList] at hinOrder

theorem Tiles.exists_cut (h : Tiles P 0 source.toList vs) (hv : v ∈ vs) : ∃ w rest,
    v.span.Cuts source (String.ofList w) ∧ w ≠ [] ∧ P w rest v.value := by
  obtain ⟨left, w, right, htext, hleft, hstop, hne, hw⟩ := h.exists_word hv
  rw [Nat.zero_add] at hleft
  refine ⟨w, right, Span.cuts_iff.2 ⟨left, right, ?_, hleft, ?_⟩, hne, hw⟩
  · rw [String.toList_ofList, htext]
  · rw [String.toList_ofList, hstop]

theorem Tiles.cuts_blank (h : Tiles P 0 source.toList vs) {i : ℕ} (hi : i < source.utf8ByteSize)
    (hout : ∀ v ∈ vs, ¬ v.span.Holds i) :
    ∃ c ∈ [' ', '\t', '\r'], Span.Cuts ⟨i, i + 1⟩ source (String.singleton c) := by
  obtain ⟨left, c, right, htext, hleft, hc⟩ := h.exists_blank (Nat.zero_le i)
    (by rwa [Nat.zero_add, byteLength_toList]) hout
  rw [Nat.zero_add] at hleft
  have hsize := utf8Size_blank hc
  refine ⟨c, by simpa [Lexeme.isBlank, or_assoc] using hc,
    Span.cuts_iff.2 ⟨left, right, ?_, hleft, ?_⟩⟩
  · simpa using htext
  · simp [byteLength, hsize]

/-- Values that stand for others are in the places of these. -/
theorem Tiles.of_map {γ : Type} {Q : List Char → List Char → γ → Prop} {f : γ → β}
    {us : List (Located γ)} (h : Tiles P offset text (us.map fun u => ⟨f u.value, u.span⟩))
    (hf : ∀ w rest b, P w rest (f b) → Q w rest b) : Tiles Q offset text us := by
  generalize hvs : us.map (fun u => (⟨f u.value, u.span⟩ : Located β)) = vs at h
  induction h generalizing us with
  | nil offset =>
    obtain rfl := List.map_eq_nil_iff.1 hvs
    exact .nil offset
  | blank hc h ih => exact .blank hc (ih hvs)
  | value hne hb h ih =>
    obtain ⟨⟨b, span⟩, us, rfl, hu, hus⟩ := List.map_eq_cons_iff.1 hvs
    obtain ⟨rfl, rfl⟩ := Located.mk.inj hu
    exact .value hne (hf _ _ _ hb) (ih hus)

end Tiles

/-! ### The pieces of a text -/

section Pieces

variable {α : Type} [Numeral α] {w rest part text : List Char} {t : Token α} {c : Char}

/-- **The token at the head of a text** is written with the first characters of it. -/
def Heads (w rest : List Char) (t : Token α) : Prop :=
  Lexeme.atHead? (w ++ rest) = some ⟨t, w.length⟩

/-- The token stays the same where the text ends earlier, but after the token. -/
theorem Heads.of_part (h : Heads w rest t) (hpart : part <+: rest) : Heads w part t := by
  have hprefix : w ++ part <+: w ++ rest := (List.prefix_append_right_inj w).2 hpart
  have hlength : w.length ≤ (w ++ part).length := by
    rw [List.length_append]
    omega
  exact Lexeme.greedy_atHead?.kept hprefix h hlength

/-- What a piece of a text is: a token, or characters where no token begins. -/
def IsPiece (w rest : List Char) : Piece α → Prop
  | .token t => Heads w rest t
  | .stray s => s = String.ofList w ∧ Stops Lexeme.isBlank w ∧
    Lexeme.atHead? (α := α) (w ++ rest) = none

/-- A token that is found is written with as many characters as were read. -/
theorem exists_heads {l : Lexeme α} (h : Lexeme.atHead? text = some l) :
    ∃ w after, text = w ++ after ∧ w ≠ [] ∧ Heads w after l.token := by
  obtain ⟨hpos, hle⟩ := Lexeme.greedy_atHead?.within h
  have hlength : (text.take l.length).length = l.length := List.length_take_of_le hle
  have hne : text.take l.length ≠ [] := by
    intro hnil
    rw [hnil, List.length_nil] at hlength
    omega
  refine ⟨text.take l.length, text.drop l.length, (List.take_append_drop _ _).symm, hne, ?_⟩
  rw [Heads, List.take_append_drop, hlength, h]

/-- Where no token begins, characters are set aside. -/
theorem pieces_of_none (hc : Lexeme.isBlank c = false)
    (hl : Lexeme.atHead? (α := α) (c :: rest) = none) (offset : ℕ) :
    ∃ w after, c :: rest = w ++ after ∧ w ≠ [] ∧ pieces (α := α) offset (c :: rest) =
      ⟨.stray (String.ofList w), ⟨offset, offset + byteLength w⟩⟩ ::
        pieces (offset + byteLength w) after := by
  refine ⟨c :: rest.take (strayLength (c :: rest) - 1), rest.drop (strayLength (c :: rest) - 1),
    ?_, List.cons_ne_nil _ _, ?_⟩
  · rw [List.cons_append, List.take_append_drop]
  · rw [pieces, hc, hl]
    simp

/-- **A text is made up of its pieces.** -/
theorem pieces_tiles (offset : ℕ) (text : List Char) :
    Tiles (IsPiece (α := α)) offset text (pieces offset text) := by
  induction hn : text.length using Nat.strong_induction_on generalizing offset text with
  | _ n ih =>
    cases text with
    | nil =>
      rw [pieces]
      exact .nil offset
    | cons c rest =>
      -- what comes after a piece is shorter
      have hafter : ∀ w after, c :: rest = w ++ after → w ≠ [] → ∀ offset,
          Tiles (IsPiece (α := α)) offset after (pieces offset after) := by
        intro w after htext hne offset
        have hlength := congrArg List.length htext
        have hpos := List.length_pos_iff.2 hne
        rw [List.length_append] at hlength
        exact ih after.length (by omega) offset after rfl
      cases hc : Lexeme.isBlank c with
      | true =>
        rw [pieces_blank hc]
        exact .blank hc (hafter [c] rest rfl (List.cons_ne_nil _ _) _)
      | false =>
        cases hl : Lexeme.atHead? (α := α) (c :: rest) with
        | some l =>
          obtain ⟨w, after, htext, hne, hheads⟩ := exists_heads hl
          rw [htext, pieces_append hne hheads]
          exact .value hne hheads (hafter w after htext hne _)
        | none =>
          obtain ⟨w, after, htext, hne, hpieces⟩ := pieces_of_none hc hl offset
          have hblank : Stops Lexeme.isBlank w := by
            obtain ⟨d, w, rfl⟩ := List.exists_cons_of_ne_nil hne
            obtain ⟨rfl, -⟩ := List.cons.inj htext
            exact stops_cons.2 hc
          rw [htext] at hl
          rw [hpieces, htext]
          exact .value hne ⟨rfl, hblank, hl⟩ (hafter w after htext hne _)

/-- **What a text is made up of are its pieces.** -/
theorem Tiles.pieces {offset : ℕ} {ts : List (Located (Token α))} (h : Tiles Heads offset text ts) :
    pieces offset text = ts.map fun t => ⟨.token t.value, t.span⟩ := by
  induction h with
  | nil offset =>
    rw [Schematic.pieces]
    rfl
  | blank hc h ih => rw [pieces_blank hc, ih]
  | value hne hb h ih => rw [pieces_append hne hb, ih, List.map_cons]

end Pieces

/-! ### What tokens are spelled with -/

/-- The spelling of a token that can be spelled in one way only. -/
def Token.spelling? {α : Type} : Token α → Option String
  | name text | hex text => some text
  | comment text => some ("//" ++ text)
  | lineBreak => some "\n"
  | number _ | quoted _ => none
  | t => t.fixedText?

section Spelling

variable {α : Type} {w rest : List Char} {t : Token α}

theorem Token.spelling?_ofWord (text : String) : (ofWord text : Token α).spelling? = some text := by
  unfold ofWord
  split <;> rfl

theorem Token.spelling?_ofSymbol (h : ofSymbol? w = some (t, w.length)) :
    t.spelling? = some (String.ofList w) := by
  unfold ofSymbol? at h
  split at h <;> simp only [Option.some.injEq, Prod.mk.injEq, reduceCtorEq] at h <;>
    obtain ⟨rfl, hlength⟩ := h <;> simp at hlength <;> subst hlength <;> rfl

/-- A stretch that reaches to the end of a text is all of it. -/
theorem takeWhile_eq_of_length {p : Char → Bool} {text : List Char}
    (h : text.length ≤ (text.takeWhile p).length) : text.takeWhile p = text :=
  (List.takeWhile_prefix p).eq_of_length_le h

variable [Numeral α]

/-- **The characters of a token** that is spelled in one way only. -/
theorem Heads.spelling (h : Heads w rest t) {s : String} (hs : t.spelling? = some s) :
    String.ofList w = s := by
  have hw := h.of_part List.nil_prefix
  rw [Heads, List.append_nil] at hw
  unfold Lexeme.atHead? at hw
  rcases Lexeme.longer?_eq_some hw with hw | ⟨hw, -⟩
  · unfold Lexeme.number? at hw
    split at hw
    simp only at hw
    split at hw
    · simp at hw
    · obtain ⟨rfl, -⟩ := Lexeme.mk.inj (Option.some.inj hw)
      simp [Token.spelling?] at hs
  rcases Lexeme.longer?_eq_some hw with hw | ⟨hw, -⟩
  · unfold Lexeme.word? at hw
    split at hw
    · simp at hw
    · rename_i c w
      split at hw
      · obtain ⟨rfl, hlength⟩ := Lexeme.mk.inj (Option.some.inj hw)
        rw [Token.spelling?_ofWord] at hs
        rw [← Option.some.inj hs, takeWhile_eq_of_length (by simpa using hlength.ge)]
      · simp at hw
  rcases Lexeme.longer?_eq_some hw with hw | ⟨hw, -⟩
  · unfold Lexeme.comment? at hw
    split at hw
    · rename_i w
      obtain ⟨rfl, hlength⟩ := Lexeme.mk.inj (Option.some.inj hw)
      rw [takeWhile_eq_of_length (by simpa using hlength.ge)] at hs
      obtain rfl := Option.some.inj hs
      rw [← String.toList_inj]
      simp
    · simp at hw
  rcases Lexeme.longer?_eq_some hw with hw | ⟨hw, -⟩
  · obtain ⟨rest, held, read, -, -, hl⟩ := Lexeme.quoted?_eq_some_iff.1 hw
    obtain ⟨rfl, -⟩ := Lexeme.mk.inj hl
    simp [Token.spelling?] at hs
  rcases Lexeme.longer?_eq_some hw with hw | ⟨hw, -⟩
  · unfold Lexeme.hex? at hw
    split at hw
    · rename_i w
      simp only at hw
      split at hw
      · simp at hw
      · obtain ⟨rfl, hlength⟩ := Lexeme.mk.inj (Option.some.inj hw)
        rw [← Option.some.inj hs, takeWhile_eq_of_length (by simpa using hlength.ge)]
    · simp at hw
  · obtain ⟨⟨t', n⟩, hsymbol, hl⟩ := Option.map_eq_some_iff.1 hw
    obtain ⟨rfl, rfl⟩ := Lexeme.mk.inj hl
    rw [Token.spelling?_ofSymbol hsymbol] at hs
    exact Option.some.inj hs

end Spelling

/-! ### The tokens of a source -/

section Sources

variable {α : Type} {all : List (Located (Piece α))}

theorem eq_map_tokensOf (h : straysOf all = []) :
    all = (tokensOf all).map fun t => ⟨.token t.value, t.span⟩ := by
  induction all with
  | nil => rfl
  | cons p all ih =>
    obtain ⟨piece, span⟩ := p
    cases piece with
    | token t => exact congrArg (_ :: ·) (ih h)
    | stray text => simp [straysOf] at h

theorem tokensOf_map (ts : List (Located (Token α))) :
    straysOf (ts.map fun t => (⟨.token t.value, t.span⟩ : Located (Piece α))) = [] ∧
      tokensOf (ts.map fun t => (⟨.token t.value, t.span⟩ : Located (Piece α))) = ts := by
  induction ts with
  | nil => exact ⟨rfl, rfl⟩
  | cons t ts ih => exact ⟨ih.1, congrArg (t :: ·) ih.2⟩

theorem mem_straysOf {s : Located String} (h : s ∈ straysOf all) :
    (⟨.stray s.value, s.span⟩ : Located (Piece α)) ∈ all := by
  obtain ⟨⟨piece, span⟩, hp, hs⟩ := List.mem_filterMap.1 h
  cases piece with
  | token t => simp at hs
  | stray text =>
    obtain rfl := Option.some.inj hs
    exact hp

theorem spans_straysOf (all : List (Located (Piece α))) :
    ((straysOf all).map (·.span)).Sublist (all.map (·.span)) := by
  induction all with
  | nil => exact .refl []
  | cons p all ih =>
    obtain ⟨piece, span⟩ := p
    cases piece with
    | token t => exact ih.cons span
    | stray text => exact ih.cons_cons span

variable [Numeral α]

/-- **The tokens of a source** are those that make it up. -/
theorem lex_eq_ok_iff {source : String} {tokens : List (Located (Token α))} :
    lex source = .ok tokens ↔ Tiles Heads 0 source.toList tokens := by
  constructor
  · intro h
    unfold lex at h
    simp only [List.isEmpty_iff] at h
    split at h
    · rename_i hstrays
      obtain rfl := Except.ok.inj h
      have htiles := pieces_tiles (α := α) 0 source.toList
      rw [eq_map_tokensOf hstrays] at htiles
      exact htiles.of_map fun w rest t ht => ht
    · simp at h
  · intro h
    unfold lex
    rw [h.pieces]
    simp only [(tokensOf_map tokens).1, (tokensOf_map tokens).2, List.isEmpty_nil, if_true]

/-- **The tokens of a source are sound.** -/
theorem lex_sound {source : String} {tokens : List (Located (Token α))}
    (h : lex source = .ok tokens) : ∀ t ∈ tokens, t.value.Sound := by
  intro t ht
  obtain ⟨w, rest, -, -, hw⟩ := (lex_eq_ok_iff.1 h).exists_cut ht
  exact Lexeme.atHead?_sound hw

/-- **A source has pieces that are no tokens**, or it has tokens. -/
theorem lex_eq_error {source : String} {strays : List (Located String)}
    (h : lex (α := α) source = .error strays) :
    strays ≠ [] ∧ strays = straysOf (pieces (α := α) 0 source.toList) := by
  unfold lex at h
  simp only [List.isEmpty_iff] at h
  split at h
  · simp at h
  · rename_i hne
    obtain rfl := Except.error.inj h
    exact ⟨hne, rfl⟩

/-- The characters of a token alone are read as this token. -/
theorem lex_word {w : List Char} {rest : List Char} {t : Token α} (hne : w ≠ [])
    (h : Heads w rest t) : lex (String.ofList w) = .ok [⟨t, ⟨0, byteLength w⟩⟩] := by
  have hend : Tiles (Heads (α := α)) (0 + byteLength w) [] [] := .nil _
  have htiles := Tiles.value hne (h.of_part List.nil_prefix) hend
  rw [List.append_nil, Nat.zero_add] at htiles
  rw [lex_eq_ok_iff, String.toList_ofList]
  exact htiles

/-- Where no token begins, there is none either if the text ends earlier. -/
theorem lex_ne_ok_of_none {w rest : List Char} (hne : w ≠ []) (hblank : Stops Lexeme.isBlank w)
    (h : Lexeme.atHead? (α := α) (w ++ rest) = none) (tokens : List (Located (Token α))) :
    lex (String.ofList w) ≠ .ok tokens := by
  intro hlex
  have htiles := lex_eq_ok_iff.1 hlex
  rw [String.toList_ofList] at htiles
  cases htiles with
  | nil => exact hne rfl
  | blank hc _ =>
    rw [stops_cons.1 hblank] at hc
    simp at hc
  | @value _ w' after t _ _ hheads _ =>
    obtain ⟨m, hm, -⟩ := Lexeme.greedy_atHead?.grows (List.prefix_append _ rest) hheads
    rw [h] at hm
    simp at hm

/-- **What the spans of a source are**. Tokens stand one behind the other with nothing but blanks
between them, and what the span of a token cuts out is read as this token. Where a source has no
tokens, it has pieces that are none: these stand one behind the other, and what the span of one
cuts out has no tokens either. -/
theorem lex_tiles (source : String) :
    match lex (α := α) source with
    | .ok tokens =>
      Span.InOrder ⟨0, source.utf8ByteSize⟩ (tokens.map (·.span)) ∧
        (∀ i < source.utf8ByteSize, (∀ t ∈ tokens, ¬ t.span.Holds i) →
          ∃ c ∈ [' ', '\t', '\r'], Span.Cuts ⟨i, i + 1⟩ source (String.singleton c)) ∧
        ∀ t ∈ tokens, ∃ piece, t.span.Cuts source piece ∧
          lex piece = .ok [⟨t.value, ⟨0, piece.utf8ByteSize⟩⟩]
    | .error strays =>
      strays ≠ [] ∧ Span.InOrder ⟨0, source.utf8ByteSize⟩ (strays.map (·.span)) ∧
        ∀ s ∈ strays, s.span.Cuts source s.value ∧ ∀ tokens, lex (α := α) s.value ≠ .ok tokens := by
  cases h : lex (α := α) source with
  | ok tokens =>
    have htiles := lex_eq_ok_iff.1 h
    refine ⟨htiles.inOrder_source, fun i hi hout => htiles.cuts_blank hi hout, fun t ht => ?_⟩
    obtain ⟨w, rest, hcut, hne, hw⟩ := htiles.exists_cut ht
    refine ⟨String.ofList w, hcut, ?_⟩
    rw [utf8ByteSize_ofList]
    exact lex_word hne hw
  | error strays =>
    obtain ⟨hne, rfl⟩ := lex_eq_error h
    have htiles := pieces_tiles (α := α) 0 source.toList
    refine ⟨hne, htiles.inOrder_source.sublist (spans_straysOf _), fun s hs => ?_⟩
    obtain ⟨w, rest, hcut, hword, hvalue, hblank, hnone⟩ := htiles.exists_cut (mem_straysOf hs)
    rw [hvalue]
    exact ⟨hcut, lex_ne_ok_of_none hword hblank hnone⟩

end Sources

end Schematic
