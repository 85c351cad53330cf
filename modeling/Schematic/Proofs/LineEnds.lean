import Schematic.Proofs.Tiling

/-!
# Tokens at the end of a line

Lines end with a line feed alone, or with a carriage return before it. Almost every token ends
before the one as before the other, and none of them reaches beyond the end of its line. Two kinds
are different. A comment goes on up to the line feed, so it takes the carriage return in; and a
backslash in a quoted text escapes a carriage return, but no line feed, so a text that stays open at
the end of its line may be closed later on.

* `crlf`: a text with a carriage return before each line feed.
* `Lexeme.atHead?_append_end`: a token stays the same before the end of a line.
* `Lexeme.length_le_of_end`: a token does not reach beyond the end of its line.
* `heads_comment_iff`: what comments are written with.
* `heads_returned_iff`: a token in a text with carriage returns.
-/

namespace Schematic

/-- The characters of a text with a carriage return before each line feed. -/
def returned : List Char → List Char
  | [] => []
  | c :: rest => if c = '\n' then '\r' :: '\n' :: returned rest else c :: returned rest

/-- **A text with carriage returns** before its line feeds. -/
def crlf (text : String) : String := String.ofList (returned text.toList)

theorem returned_append (u v : List Char) : returned (u ++ v) = returned u ++ returned v := by
  induction u with
  | nil => rfl
  | cons c u ih =>
    rw [List.cons_append, returned, returned, ih]
    split <;> rfl

theorem returned_of_not_mem {w : List Char} (h : '\n' ∉ w) : returned w = w := by
  induction w with
  | nil => rfl
  | cons c w ih =>
    obtain ⟨hc, hw⟩ := List.ne_and_not_mem_of_not_mem_cons h
    rw [returned, if_neg hc.symm, ih hw]

theorem returned_feed (rest : List Char) :
    returned ('\n' :: rest) = '\r' :: '\n' :: returned rest := rfl

/-- The first line of a text, and what follows it: nothing, or a line feed and more. -/
theorem exists_line (text : List Char) : ∃ line rest, text = line ++ rest ∧ '\n' ∉ line ∧
    (rest = [] ∨ ∃ more, rest = '\n' :: more) := by
  by_cases h : '\n' ∈ text
  · obtain ⟨line, more, rfl, hline⟩ := List.eq_append_cons_of_mem h
    exact ⟨line, _, rfl, hline, .inr ⟨more, rfl⟩⟩
  · exact ⟨text, [], (List.append_nil text).symm, h, .inl rfl⟩

/-- A text has one first line. -/
theorem append_feed_inj {u u' v v' : List Char} (hu : '\n' ∉ u) (hu' : '\n' ∉ u')
    (h : u ++ '\n' :: v = u' ++ '\n' :: v') : u = u' ∧ v = v' := by
  have hline : ∀ {w x : List Char}, '\n' ∉ w → (w ++ '\n' :: x).takeWhile (· ≠ '\n') = w := by
    intro w x hw
    refine takeWhile_append_of_stops (fun c hc => ?_) (by simp [Stops])
    rw [decide_eq_true_iff]
    rintro rfl
    exact hw hc
  obtain rfl : u = u' := by rw [← hline hu, h, hline hu']
  exact ⟨rfl, (List.cons.inj (List.append_cancel_left h)).2⟩

/-! ### Tokens at the end of a line -/

namespace Lexeme

variable {α : Type} {part more : List Char} {c e : Char} {l : Lexeme α}

/-- A stretch of characters stops at a character of another kind. -/
theorem takeWhile_append_cons {p : Char → Bool} (he : p e = false) :
    (part ++ e :: more).takeWhile p = part.takeWhile p := by
  rw [List.takeWhile_append]
  split
  · rename_i h
    rw [List.takeWhile_cons_of_neg (by simp [he]), List.append_nil]
    exact ((List.takeWhile_prefix p).eq_of_length h).symm
  · rfl

theorem hex?_eq_none (hc : c ≠ '#') : hex? (α := α) (c :: part) = none := by
  unfold hex?
  split
  · rename_i heq
    exact absurd (List.cons.inj heq).1 hc
  · rfl

theorem quoted?_eq_none (hc : c ≠ '"') : quoted? (α := α) (c :: part) = none := by
  unfold quoted?
  split
  · rename_i heq
    exact absurd (List.cons.inj heq).1 hc
  · rfl

theorem comment?_eq_none_iff :
    comment? (α := α) part = none ↔ ∀ rest, part ≠ '/' :: '/' :: rest := by
  unfold comment?
  split
  · simp
  · rename_i h
    simpa using h

/-- A quoted text ends at its closing quote, whatever follows. -/
theorem quoted?_append (h : quoted? part = some l) : quoted? (part ++ more) = some l := by
  obtain ⟨rest, held, read, rfl, hclosing, rfl⟩ := quoted?_eq_some_iff.1 h
  have hmore := (closing_spec hclosing).2.2 (rest.drop read ++ more)
  rw [← List.append_assoc, List.take_append_drop] at hmore
  exact quoted?_eq_some_iff.2 ⟨rest ++ more, held, read, rfl, hmore, rfl⟩

/-- A quote begins a quoted text or nothing. -/
theorem atHead?_quote [Numeral α] (rest : List Char) :
    atHead? (α := α) ('"' :: rest) = quoted? ('"' :: rest) := by
  have hcomment : comment? (α := α) ('"' :: rest) = none := rfl
  have hothers : longer? (hex? (α := α) ('"' :: rest)) (symbol? ('"' :: rest)) = none := rfl
  rw [atHead?, number?_eq_none (by decide) (by decide), word?_eq_none (by decide), hcomment,
    hothers, longer?_none, longer?_none, longer?_none]
  cases quoted? (α := α) ('"' :: rest) <;> rfl

/-- Two slashes begin a comment. -/
theorem atHead?_slashes [Numeral α] (rest : List Char) :
    atHead? (α := α) ('/' :: '/' :: rest) = comment? ('/' :: '/' :: rest) := by
  rw [atHead?, number?_eq_none (by decide) (by decide), word?_eq_none (by decide), longer?_none,
    longer?_none]
  refine longer?_eq_left fun m hm => ?_
  obtain rfl : (⟨.slash, 1⟩ : Lexeme α) = m := Option.some.inj hm
  simp

section Readers

variable (he : e = '\r' ∨ e = '\n')

include he

theorem fractionAt_append_end : fractionAt (part ++ e :: more) = fractionAt part := by
  have hdigit : e.isDigit = false := by rcases he with rfl | rfl <;> rfl
  cases part with
  | nil => rcases he with rfl | rfl <;> rfl
  | cons c part =>
    by_cases hc : c = '.'
    · subst hc
      exact takeWhile_append_cons hdigit
    · unfold fractionAt
      split
      · rename_i heq
        exact absurd (List.cons.inj heq).1 hc
      · split
        · rename_i heq
          exact absurd (List.cons.inj heq).1 hc
        · rfl

theorem numberFrom_append_end [Numeral α] (negative : Bool) :
    numberFrom (α := α) negative (part ++ e :: more) = numberFrom negative part := by
  have hdigit : e.isDigit = false := by rcases he with rfl | rfl <;> rfl
  have hfraction : fractionAt ((part ++ e :: more).drop (part.takeWhile Char.isDigit).length) =
      fractionAt (part.drop (part.takeWhile Char.isDigit).length) := by
    rw [List.drop_append_of_le_length (List.takeWhile_prefix _).length_le,
      fractionAt_append_end he]
  unfold numberFrom
  simp only [takeWhile_append_cons hdigit, hfraction]

theorem number?_append_end [Numeral α] : number? (α := α) (part ++ e :: more) = number? part := by
  cases part with
  | nil => rcases he with rfl | rfl <;> rfl
  | cons c part =>
    by_cases hc : c = '-'
    · subst hc
      exact numberFrom_append_end he true
    · rw [List.cons_append, number?_of_ne hc, number?_of_ne hc, ← List.cons_append]
      exact numberFrom_append_end he false

theorem word?_append_end : word? (α := α) (part ++ e :: more) = word? part := by
  have hpart : isNamePart e = false := by rcases he with rfl | rfl <;> decide
  cases part with
  | nil => rcases he with rfl | rfl <;> rfl
  | cons c part => rw [List.cons_append, word?, word?, takeWhile_append_cons hpart]

theorem hex?_append_end : hex? (α := α) (part ++ e :: more) = hex? part := by
  have hdigit : e.isAlphanum = false := by rcases he with rfl | rfl <;> rfl
  cases part with
  | nil => rcases he with rfl | rfl <;> rfl
  | cons c part =>
    by_cases hc : c = '#'
    · subst hc
      rw [List.cons_append, hex?, hex?, takeWhile_append_cons hdigit]
    · rw [List.cons_append, hex?_eq_none hc, hex?_eq_none hc]

theorem symbol?_append_end (hpart : part ≠ []) :
    symbol? (α := α) (part ++ e :: more) = symbol? part := by
  have hequal : e ≠ '=' := by rcases he with rfl | rfl <;> decide
  obtain ⟨c, part, rfl⟩ := List.exists_cons_of_ne_nil hpart
  have hhead : (part ++ e :: more).head? = some '=' ↔ part.head? = some '=' := by
    cases part <;> simp [hequal]
  rw [symbol?, symbol?, List.cons_append, ofSymbol?_cons, ofSymbol?_cons c part]
  simp only [hhead]

/-- Two slashes do not come together at the end of a line. -/
theorem comment?_append_end (h : comment? (α := α) part = none) :
    comment? (α := α) (part ++ e :: more) = none := by
  have hslash : e ≠ '/' := by rcases he with rfl | rfl <;> decide
  rw [comment?_eq_none_iff] at h ⊢
  intro rest heq
  match part with
  | [] => exact hslash (List.cons.inj heq).1
  | [c] => exact hslash (List.cons.inj (List.cons.inj heq).2).1
  | c :: d :: part =>
    obtain ⟨rfl, hsecond⟩ := List.cons.inj heq
    obtain ⟨rfl, -⟩ := List.cons.inj hsecond
    exact h part rfl

variable [Numeral α]

/-- **A token stays the same before the end of a line**, unless it is a comment. -/
theorem atHead?_append_end (h : atHead? part = some l) (hl : ∀ text, l.token ≠ .comment text) :
    atHead? (part ++ e :: more) = some l := by
  have hne : part ≠ [] := by
    rintro rfl
    have hlength := (greedy_atHead?.within h).2
    have hpos := (greedy_atHead?.within h).1
    simp only [List.length_nil] at hlength
    omega
  obtain ⟨c, part, rfl⟩ := List.exists_cons_of_ne_nil hne
  by_cases hc : c = '"'
  · subst hc
    rw [atHead?_quote] at h
    rw [List.cons_append, atHead?_quote, ← List.cons_append, quoted?_append h]
  · have hcomment : comment? (α := α) (c :: part) = none := by
      rw [comment?_eq_none_iff]
      intro rest heq
      rw [heq, atHead?_slashes] at h
      obtain rfl := Option.some.inj h
      exact hl _ rfl
    have hquoted : quoted? (α := α) (c :: part ++ e :: more) = quoted? (c :: part) := by
      rw [List.cons_append, quoted?_eq_none hc, quoted?_eq_none hc]
    unfold atHead? at h ⊢
    rw [number?_append_end he, word?_append_end he, comment?_append_end he hcomment, hquoted,
      hex?_append_end he, symbol?_append_end he hne, ← hcomment, h]

end Readers

/-- **What a quoted text holds**: all line feeds before the quote that closes it. -/
theorem exists_body {text held : List Char} {read : ℕ} (h : closing text = .ok (held, read)) :
    ∃ body after, text = body ++ '"' :: after ∧ read = body.length + 1 ∧
      ('\n' ∈ body → '\n' ∈ held) := by
  fun_induction closing text generalizing held read with
  | case1 rest =>
    obtain ⟨rfl, rfl⟩ : [] = held ∧ 1 = read := by simpa using h
    exact ⟨[], rest, rfl, rfl, id⟩
  | case2 => simp at h
  | case3 c more hc held' read' heq ih =>
    obtain ⟨rfl, rfl⟩ : c :: held' = held ∧ read' + 2 = read := by simpa using h
    obtain ⟨body, after, rfl, rfl, hheld⟩ := ih heq
    refine ⟨'\\' :: c :: body, after, rfl, rfl, fun hfeed => ?_⟩
    have hrest := (List.mem_cons.1 hfeed).resolve_left (by decide)
    exact List.mem_cons.2 ((List.mem_cons.1 hrest).imp_right hheld)
  | case4 => simp at h
  | case5 => simp at h
  | case6 => simp at h
  | case7 c more hquote hescape hlone held' read' heq ih =>
    obtain ⟨rfl, rfl⟩ : c :: held' = held ∧ read' + 1 = read := by simpa using h
    obtain ⟨body, after, rfl, rfl, hheld⟩ := ih heq
    exact ⟨c :: body, after, rfl, rfl, fun hfeed =>
      List.mem_cons.2 ((List.mem_cons.1 hfeed).imp_right hheld)⟩
  | case8 => simp at h

/-- A quote beyond the end of a line has its line feed before it. -/
theorem feed_mem_or_lt {body after : List Char} (he : e = '\n' ∨ e = '\r' ∧ more.head? = some '\n')
    (h : part ++ e :: more = body ++ '"' :: after) : '\n' ∈ body ∨ body.length < part.length := by
  have hquote : e ≠ '"' := by rcases he with rfl | ⟨rfl, -⟩ <;> decide
  rcases List.append_eq_append_iff.1 h with ⟨beyond, rfl, htail⟩ | ⟨left, rfl, htail⟩
  · refine .inl (List.mem_append_right _ ?_)
    match beyond with
    | [] => exact absurd (List.cons.inj htail).1 hquote
    | d :: beyond =>
      obtain ⟨rfl, hmore⟩ := List.cons.inj htail
      rcases he with rfl | ⟨-, hfeed⟩
      · exact List.mem_cons_self
      · -- the line feed behind a carriage return is no quote
        rw [hmore] at hfeed
        cases beyond with
        | nil => exact absurd (Option.some.inj hfeed) (by decide)
        | cons d' beyond =>
          obtain rfl := Option.some.inj hfeed
          exact List.mem_cons_of_mem _ List.mem_cons_self
  · cases left with
    | nil => exact absurd (List.cons.inj htail).1.symm hquote
    | cons d left => exact .inr (by simp)

/-- **A token does not reach beyond the end of its line**, unless it is a comment, or a quoted text
that holds a line feed. -/
theorem length_le_of_end [Numeral α] (he : e = '\n' ∨ e = '\r' ∧ more.head? = some '\n')
    (hpart : part ≠ []) (h : atHead? (part ++ e :: more) = some l)
    (hcomment : ∀ text, l.token ≠ .comment text)
    (hquoted : ∀ text, l.token = .quoted text → '\n' ∉ text.toList) : l.length ≤ part.length := by
  have hend : e = '\r' ∨ e = '\n' := he.symm.imp_left And.left
  unfold atHead? at h
  rcases longer?_eq_some h with h | ⟨h, -⟩
  · rw [number?_append_end hend] at h
    exact (greedy_number?.within h).2
  rcases longer?_eq_some h with h | ⟨h, -⟩
  · rw [word?_append_end hend] at h
    exact (greedy_word?.within h).2
  rcases longer?_eq_some h with h | ⟨h, -⟩
  · unfold comment? at h
    split at h
    · obtain rfl := Option.some.inj h
      exact absurd rfl (hcomment _)
    · simp at h
  rcases longer?_eq_some h with h | ⟨h, -⟩
  · obtain ⟨rest, held, read, htext, hclosing, rfl⟩ := quoted?_eq_some_iff.1 h
    obtain ⟨body, after, rfl, rfl, hheld⟩ := exists_body hclosing
    obtain ⟨c, part, rfl⟩ := List.exists_cons_of_ne_nil hpart
    rcases feed_mem_or_lt he (List.cons.inj htext).2 with hfeed | hlt
    · exact absurd (hheld hfeed) (by simpa using hquoted _ rfl)
    · simpa using hlt
  rcases longer?_eq_some h with h | ⟨h, -⟩
  · rw [hex?_append_end hend] at h
    exact (greedy_hex?.within h).2
  · rw [symbol?_append_end hend hpart] at h
    exact (greedy_symbol?.within h).2

end Lexeme

/-! ### The tokens of a text -/

/-- The text that a token quotes. -/
def Token.quotedText? {α : Type} : Token α → Option String
  | .quoted text => some text
  | _ => none

section Tokens

variable {α : Type} [Numeral α] {w rest : List Char} {t : Token α}

theorem heads_feed (rest : List Char) : Heads (α := α) ['\n'] rest .lineBreak := by
  rw [Heads, List.singleton_append, Lexeme.atHead?, Lexeme.number?_eq_none (by decide) (by decide),
    Lexeme.word?_eq_none (by decide)]
  rfl

/-- The first token of a line is the line feed if the line is empty. -/
theorem Heads.of_feed (h : Heads w rest t) {more : List Char} (htext : w ++ rest = '\n' :: more) :
    w = ['\n'] ∧ t = .lineBreak := by
  rw [Heads, htext] at h
  obtain ⟨rfl, hlength⟩ := Lexeme.mk.inj (Option.some.inj ((heads_feed more).symm.trans h))
  obtain ⟨c, rfl⟩ := List.length_eq_one_iff.1 hlength.symm
  exact ⟨congrArg ([·]) (List.cons.inj htext).1, rfl⟩

/-- **A comment** is all that follows two slashes on their line. -/
theorem heads_comment_iff {text : String} : Heads (α := α) w rest (.comment text) ↔
    w = '/' :: '/' :: text.toList ∧ '\n' ∉ text.toList ∧
      (rest = [] ∨ ∃ more, rest = '\n' :: more) := by
  have hstops : Stops (· ≠ '\n') rest ↔ rest = [] ∨ ∃ more, rest = '\n' :: more := by
    cases rest <;> simp [Stops]
  rw [← hstops]
  constructor
  · intro h
    have hw : w = '/' :: '/' :: text.toList := by
      have hspelling := h.spelling rfl
      rw [← String.toList_inj] at hspelling
      simpa using hspelling
    have htext : '\n' ∉ text.toList := Lexeme.atHead?_sound h
    refine ⟨hw, htext, ?_⟩
    rw [hw, Heads, List.cons_append, List.cons_append, Lexeme.atHead?_slashes, Lexeme.comment?] at h
    obtain ⟨hheld, -⟩ := Lexeme.mk.inj (Option.some.inj h)
    have htake : (text.toList ++ rest).takeWhile (· ≠ '\n') = text.toList := by
      have hcomment := congrArg String.toList (Token.comment.inj hheld)
      rwa [String.toList_ofList] at hcomment
    have hall : ∀ c ∈ text.toList, decide (c ≠ '\n') = true := by
      intro c hc
      rw [decide_eq_true_iff]
      rintro rfl
      exact htext hc
    rw [List.takeWhile_append_of_pos hall, List.append_right_eq_self] at htake
    intro c hc
    obtain ⟨rest, rfl⟩ := List.head?_eq_some_iff.1 hc
    by_contra hstop
    rw [List.takeWhile_cons_of_pos (by simpa using hstop)] at htake
    exact absurd htake (List.cons_ne_nil _ _)
  · rintro ⟨rfl, htext, hrest⟩
    have h := Lexeme.atHead?_comment (α := α) htext hrest
    rwa [String.ofList_toList] at h

/-- A token that is no line break, comment or quoted text with a line feed stays on its line. -/
theorem Heads.feed_not_mem (h : Heads w rest t) (hbreak : t ≠ .lineBreak)
    (hcomment : ∀ text, t ≠ .comment text) (hquoted : ∀ text ∈ t.quotedText?, '\n' ∉ text.toList) :
    '\n' ∉ w := by
  intro hmem
  obtain ⟨part, more, rfl, hpart⟩ := List.eq_append_cons_of_mem hmem
  rw [Heads, List.append_assoc, List.cons_append] at h
  by_cases hne : part = []
  · subst hne
    exact hbreak (Heads.of_feed (w := '\n' :: more) h rfl).2
  · have hle := Lexeme.length_le_of_end (.inl rfl) hne h hcomment fun text ht => by
      obtain rfl : t = .quoted text := ht
      exact hquoted text rfl
    simp at hle

/-- **What follows a token on its line** settles it, however the line ends. -/
theorem heads_returned_iff (hcomment : ∀ text, t ≠ .comment text) :
    Heads w (returned rest) t ↔ Heads w rest t := by
  obtain ⟨line, rest, rfl, hline, rfl | ⟨more, rfl⟩⟩ := exists_line rest
  · rw [List.append_nil, returned_of_not_mem hline]
  · rw [returned_append, returned_of_not_mem hline, returned_feed]
    have hend : ∀ e more, e = '\r' ∨ e = '\n' →
        (Heads w (line ++ e :: more) t ↔ Heads w line t) := by
      intro e more he
      refine ⟨fun h => h.of_part (List.prefix_append _ _), fun h => ?_⟩
      rw [Heads, ← List.append_assoc]
      exact Lexeme.atHead?_append_end he h hcomment
    rw [hend _ _ (.inl rfl), hend _ _ (.inr rfl)]

end Tokens

end Schematic
