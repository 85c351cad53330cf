import Schematic.Proofs.Commenting
import Schematic.Proofs.LineEnds

/-!
# Carriage returns

What becomes of a document when its source is written with carriage returns before its line feeds.
The tokens stay the same ones in other places, but for comments, which take in the carriage return
behind them. So the source is read as the same document with other comments. The other way round a
source with carriage returns may be read though it cannot be read without them, and then only
because a quoted text goes on over the end of a line.

* `Tiles.exists_returned`: the tokens of a text when carriage returns are put in.
* `Tiles.exists_of_returned`: the tokens of a text when they are taken out again.
* `Unbroken`: a source without line feeds in its quoted texts.
* `parse_crlf`: what carriage returns do to a document.
-/

namespace Schematic

/-! ### Tokens in their places -/

section Tokens

variable {α : Type} [Numeral α] {w : List Char} {t : Token α}
variable {offset : ℕ} {text : List Char} {ts us : Parsing.Tokens α} {c : Char}

/-- A blank is no part of a token. -/
theorem Tiles.of_blank (h : Tiles Heads offset (c :: text) ts) (hc : Lexeme.isBlank c = true) :
    Tiles Heads (offset + c.utf8Size) text ts := by
  generalize hall : c :: text = all at h
  cases h with
  | nil => simp at hall
  | blank _ h =>
    obtain ⟨rfl, rfl⟩ := List.cons.inj hall
    exact h
  | value hne hb _ =>
    rw [Heads, ← hall, Lexeme.atHead?_blank hc] at hb
    simp at hb

/-- What is no blank begins a token. -/
theorem Tiles.of_not_blank (h : Tiles Heads offset (c :: text) ts) (hc : Lexeme.isBlank c = false) :
    ∃ w rest t vs, c :: text = w ++ rest ∧ w ≠ [] ∧ Heads w rest t ∧
      ts = ⟨t, ⟨offset, offset + byteLength w⟩⟩ :: vs ∧
      Tiles Heads (offset + byteLength w) rest vs := by
  generalize hall : c :: text = all at h
  cases h with
  | nil => simp at hall
  | blank hblank _ =>
    obtain ⟨rfl, rfl⟩ := List.cons.inj hall
    simp [hc] at hblank
  | value hne hb h => exact ⟨_, _, _, _, rfl, hne, hb, rfl, h⟩

theorem Tiles.nil_iff : Tiles (Heads (α := α)) offset [] ts ↔ ts = [] := by
  constructor
  · intro h
    generalize hall : ([] : List Char) = all at h
    cases h with
    | nil => rfl
    | blank => simp at hall
    | value hne => exact absurd (List.append_eq_nil_iff.1 hall.symm).1 hne
  · rintro rfl
    exact .nil offset

/-- What carriage returns do to a comment. -/
def withReturn (text : String) : String := text ++ "\r"

/-- The text of a comment before it took in a carriage return. -/
def withoutReturn (text : String) : String := String.ofList text.toList.dropLast

theorem withoutReturn_withReturn (text : String) : withoutReturn (withReturn text) = text := by
  simp [withoutReturn, withReturn]

/-- A line feed begins a token. -/
theorem Tiles.ne_nil_of_feed (h : Tiles Heads offset ('\n' :: text) ts) : ts ≠ [] := by
  obtain ⟨w, rest, t, vs, -, -, -, rfl, -⟩ := h.of_not_blank rfl
  exact List.cons_ne_nil _ _

theorem byteLength_withReturn (comment : String) :
    byteLength ('/' :: '/' :: (withReturn comment).toList) =
      byteLength ('/' :: '/' :: comment.toList) + '\r'.utf8Size := by
  simp [withReturn, byteLength, byteLength_append, Nat.add_assoc]

/-- A comment takes in the carriage return behind it. -/
theorem Tiles.comment {comment : String} (hcomment : '\n' ∉ comment.toList)
    (h : Tiles Heads (offset + byteLength ('/' :: '/' :: comment.toList))
      (returned ('\n' :: text)) us) :
    ∃ s, Tiles Heads offset (returned ('/' :: '/' :: comment.toList ++ '\n' :: text))
      (⟨.comment (withReturn comment), s⟩ :: us) := by
  have hw : '\n' ∉ '/' :: '/' :: comment.toList := by simpa using hcomment
  have hheads : Heads (α := α) ('/' :: '/' :: (withReturn comment).toList) ('\n' :: returned text)
      (.comment (withReturn comment)) :=
    heads_comment_iff.2 ⟨rfl, by simpa [withReturn] using hcomment, .inr ⟨_, rfl⟩⟩
  have hrest := h.of_blank rfl
  rw [Nat.add_assoc, ← byteLength_withReturn] at hrest
  have htext : returned ('/' :: '/' :: comment.toList ++ '\n' :: text) =
      '/' :: '/' :: (withReturn comment).toList ++ '\n' :: returned text := by
    rw [returned_append, returned_of_not_mem hw, returned_feed]
    simp [withReturn]
  rw [htext]
  exact ⟨_, .value (List.cons_ne_nil _ _) hheads hrest⟩

/-- **The tokens of a text with carriage returns**: comments have taken them in. -/
theorem Tiles.exists_returned (h : Tiles Heads offset text ts) (hreturn : '\r' ∉ text)
    (hquoted : ∀ t ∈ ts, ∀ text ∈ t.value.quotedText?, '\n' ∉ text.toList) (offset' : ℕ) :
    ∃ us, Tiles Heads offset' (returned text) us ∧ Recommented withReturn id ts us := by
  induction h generalizing offset' with
  | nil offset => exact ⟨[], .nil _, rfl⟩
  | @blank offset c rest ts hc h ih =>
    obtain ⟨-, hrest⟩ := List.ne_and_not_mem_of_not_mem_cons hreturn
    have hfeed : c ≠ '\n' := by
      rintro rfl
      exact absurd hc (by decide)
    obtain ⟨us, hus, hvalues⟩ := ih hrest hquoted (offset' + c.utf8Size)
    rw [returned, if_neg hfeed]
    exact ⟨us, .blank hc hus, hvalues⟩
  | @value offset w rest t ts hne hb h ih =>
    have hrest : '\r' ∉ rest := fun hmem => hreturn (List.mem_append_right w hmem)
    obtain ⟨htoken, htokens⟩ := List.forall_mem_cons.1 hquoted
    have hrestTiles := ih hrest htokens
    by_cases hbreak : t = .lineBreak
    · subst hbreak
      obtain rfl : w = ['\n'] := by
        have hspelling := hb.spelling rfl
        rw [← String.toList_inj] at hspelling
        simpa using hspelling
      obtain ⟨us, hus, hvalues⟩ := hrestTiles (offset' + '\r'.utf8Size + byteLength ['\n'])
      exact ⟨_, .blank rfl (.value hne (heads_feed _) hus), hvalues.of_cons _ _⟩
    by_cases hcomment : ∃ text, t = .comment text
    · obtain ⟨text, rfl⟩ := hcomment
      obtain ⟨rfl, htext, hend⟩ := heads_comment_iff.1 hb
      rcases hend with rfl | ⟨more, rfl⟩
      · obtain rfl := Tiles.nil_iff.1 h
        have hw : '\n' ∉ '/' :: '/' :: text.toList := by simpa using htext
        rw [returned_append, returned_of_not_mem hw]
        exact ⟨_, .value hne hb (.nil _), Recommented.nil_iff.2 rfl |>.of_cons _ _⟩
      · -- a line break follows, so this is not the last token
        obtain ⟨t, ts, rfl⟩ := List.exists_cons_of_ne_nil h.ne_nil_of_feed
        obtain ⟨us, hus, hvalues⟩ := hrestTiles (offset' + byteLength ('/' :: '/' :: text.toList))
        obtain ⟨s, hcomment⟩ := hus.comment htext
        exact ⟨_, hcomment, hvalues.of_cons _ s⟩
    · have hcomment : ∀ text, t ≠ .comment text := fun text ht => hcomment ⟨text, ht⟩
      have hw := hb.feed_not_mem hbreak hcomment htoken
      obtain ⟨us, hus, hvalues⟩ := hrestTiles (offset' + byteLength w)
      refine ⟨_, ?_, hvalues.of_cons _ ⟨offset', offset' + byteLength w⟩⟩
      rw [returned_append, returned_of_not_mem hw, Token.recomment_of_ne hcomment]
      exact .value hne ((heads_returned_iff hcomment).2 hb) hus

/-- The characters of a token within a text with carriage returns are those of the text. -/
theorem Heads.exists_of_returned {after : List Char} (h : Heads w after t)
    (hcomment : ∀ text, t ≠ .comment text) (hquoted : ∀ text ∈ t.quotedText?, '\n' ∉ text.toList)
    (hc : c ≠ '\n') (htext : returned (c :: text) = w ++ after) :
    ∃ rest, c :: text = w ++ rest ∧ after = returned rest := by
  obtain ⟨line, rest, hline, hfeed, rfl | ⟨more, rfl⟩⟩ := exists_line (c :: text)
  · rw [List.append_nil] at hline
    rw [hline, returned_of_not_mem hfeed] at htext
    rw [hline, htext]
    rw [htext] at hfeed
    exact ⟨after, rfl, (returned_of_not_mem fun hmem => hfeed (List.mem_append_right w hmem)).symm⟩
  · have hne : line ≠ [] := by
      rintro rfl
      exact hc (List.cons.inj hline).1
    rw [hline, returned_append, returned_of_not_mem hfeed, returned_feed] at htext
    -- the token ends before the carriage return
    rw [Heads, ← htext] at h
    have hle := Lexeme.length_le_of_end (.inr ⟨rfl, rfl⟩) hne h hcomment fun text ht => by
      obtain rfl : t = .quoted text := ht
      exact hquoted text rfl
    obtain ⟨left, rfl⟩ := List.prefix_of_prefix_length_le (htext ▸ List.prefix_append w after)
      (List.prefix_append line _) hle
    rw [List.append_assoc, List.append_cancel_left_eq] at htext
    refine ⟨left ++ '\n' :: more, by rw [hline, List.append_assoc], ?_⟩
    rw [returned_append, returned_feed, ← htext,
      returned_of_not_mem fun hmem => hfeed (List.mem_append_right w hmem)]

/-- A comment within a text with carriage returns is one of the text, and has taken in the carriage
return behind it if there is one. -/
theorem exists_comment_of_returned {comment : String} {after : List Char}
    (hcomment : '\n' ∉ comment.toList) (hafter : after = [] ∨ ∃ more, after = '\n' :: more)
    (htext : returned text = '/' :: '/' :: comment.toList ++ after) :
    text = '/' :: '/' :: comment.toList ∧ after = [] ∨ ∃ held more,
      text = '/' :: '/' :: held.toList ++ '\n' :: more ∧ '\n' ∉ held.toList ∧
        comment = withReturn held ∧ after = '\n' :: returned more := by
  obtain ⟨line, rest, rfl, hfeed, rfl | ⟨more, rfl⟩⟩ := exists_line text
  · rw [List.append_nil] at htext ⊢
    rw [returned_of_not_mem hfeed] at htext
    rcases hafter with rfl | ⟨more, rfl⟩
    · exact .inl ⟨by simpa using htext, rfl⟩
    · rw [htext] at hfeed
      simp at hfeed
  · rw [returned_append, returned_of_not_mem hfeed, returned_feed, List.append_cons] at htext
    rcases hafter with rfl | ⟨more', rfl⟩
    · have hmem : '\n' ∈ '/' :: '/' :: comment.toList ++ [] := by
        rw [← htext]
        simp
      simp [hcomment] at hmem
    · obtain ⟨hword, rfl⟩ := append_feed_inj (by simpa using hfeed) (by simpa using hcomment) htext
      match line with
      | [] => exact absurd (List.cons.inj hword).1 (by decide)
      | [d] => exact absurd (List.cons.inj (List.cons.inj hword).2).1 (by decide)
      | d :: d' :: held =>
        obtain ⟨rfl, hsecond⟩ := List.cons.inj hword
        obtain ⟨rfl, hheld⟩ := List.cons.inj hsecond
        refine .inr ⟨String.ofList held, more, by simp, by simpa using hfeed, ?_, rfl⟩
        rw [← String.toList_inj, ← hheld]
        simp [withReturn]

/-- **The first token of a text with carriage returns** is one of the text. If it is a comment, it
has taken in the carriage return behind it, unless nothing follows it. -/
theorem Tiles.token_of_returned {offset' : ℕ} (h : Tiles Heads offset' (returned (c :: text)) us)
    (hblank : Lexeme.isBlank c = false)
    (hquoted : ∀ u ∈ us, ∀ text ∈ u.value.quotedText?, '\n' ∉ text.toList) :
    ∃ w rest t u s vs next, c :: text = w ++ rest ∧ w ≠ [] ∧ Heads w rest t ∧
      us = ⟨u, s⟩ :: vs ∧ Tiles Heads next (returned rest) vs ∧
      ∀ offset (ts : Parsing.Tokens α), Tiles Heads offset rest ts →
        u = t.recomment (if ts.isEmpty then id else withReturn) := by
  by_cases hfeed : c = '\n'
  · subst hfeed
    obtain ⟨w, rest, t, vs, htext, -, hheads, rfl, hvs⟩ := (h.of_blank rfl).of_not_blank rfl
    obtain ⟨rfl, rfl⟩ := hheads.of_feed htext.symm
    obtain rfl := (List.cons.inj htext).2
    exact ⟨['\n'], text, _, _, _, vs, _, rfl, List.cons_ne_nil _ _, heads_feed text, rfl, hvs,
      fun _ _ _ => rfl⟩
  rw [returned, if_neg hfeed] at h
  obtain ⟨w, after, t, vs, htext, hne, hheads, rfl, hvs⟩ := h.of_not_blank hblank
  have hreturned : returned (c :: text) = w ++ after := by rw [← htext, returned, if_neg hfeed]
  by_cases hcomment : ∃ text, t = .comment text
  · obtain ⟨comment, rfl⟩ := hcomment
    obtain ⟨rfl, htextFeed, hend⟩ := heads_comment_iff.1 hheads
    rcases exists_comment_of_returned htextFeed hend hreturned with
      ⟨hwhole, rfl⟩ | ⟨held, more, hwhole, hheld, rfl, rfl⟩
    · refine ⟨_, [], _, _, _, vs, _, by rw [hwhole, List.append_nil], hne, hheads, rfl, hvs, ?_⟩
      intro _ ts hts
      rw [Tiles.nil_iff.1 hts]
      rfl
    · -- the carriage return that the comment has taken in is a blank again
      rw [byteLength_withReturn, ← Nat.add_assoc] at hvs
      have hrest : Tiles Heads (offset' + byteLength ('/' :: '/' :: held.toList))
          (returned ('\n' :: more)) vs := .blank rfl hvs
      have hword : Heads (α := α) ('/' :: '/' :: held.toList) ('\n' :: more) (.comment held) :=
        heads_comment_iff.2 ⟨rfl, hheld, .inr ⟨more, rfl⟩⟩
      refine ⟨_, _, _, _, _, vs, _, hwhole, List.cons_ne_nil _ _, hword, rfl, hrest, ?_⟩
      intro _ ts hts
      rw [if_neg (by simpa using hts.ne_nil_of_feed)]
      rfl
  · have hcomment : ∀ text, t ≠ .comment text := fun text ht => hcomment ⟨text, ht⟩
    obtain ⟨rest, hrest, rfl⟩ :=
      hheads.exists_of_returned hcomment (List.forall_mem_cons.1 hquoted).1 hfeed hreturned
    exact ⟨w, rest, t, t, _, vs, _, hrest, hne, (heads_returned_iff hcomment).1 hheads, rfl, hvs,
      fun _ _ _ => (Token.recomment_of_ne hcomment).symm⟩

/-- **The tokens of a text without carriage returns**, if they were put in. -/
theorem Tiles.exists_of_returned {offset' : ℕ} (h : Tiles Heads offset' (returned text) us)
    (hquoted : ∀ u ∈ us, ∀ text ∈ u.value.quotedText?, '\n' ∉ text.toList) (offset : ℕ) :
    ∃ ts, Tiles Heads offset text ts ∧ Recommented withReturn id ts us := by
  induction hn : text.length using Nat.strong_induction_on generalizing text us offset offset' with
  | _ n ih =>
    cases text with
    | nil =>
      obtain rfl := Tiles.nil_iff.1 h
      exact ⟨[], .nil offset, rfl⟩
    | cons c text =>
      cases hblank : Lexeme.isBlank c with
      | true =>
        have hfeed : c ≠ '\n' := by
          rintro rfl
          exact absurd hblank (by decide)
        rw [returned, if_neg hfeed] at h
        obtain ⟨ts, hts, hvalues⟩ := ih _ (by simp [← hn]) (h.of_blank hblank) hquoted
          (offset + c.utf8Size) rfl
        exact ⟨ts, .blank hblank hts, hvalues⟩
      | false =>
        obtain ⟨w, rest, t, u, s, vs, next, htext, hne, hheads, rfl, hvs, hu⟩ :=
          h.token_of_returned hblank hquoted
        have hlength : rest.length < n := by
          have hpos := List.length_pos_iff.2 hne
          rw [← hn, htext, List.length_append]
          omega
        obtain ⟨ts, hts, hvalues⟩ := ih _ hlength hvs (List.forall_mem_cons.1 hquoted).2
          (offset + byteLength w) rfl
        rw [htext, hu _ ts hts]
        exact ⟨_, .value hne hheads hts, hvalues.of_cons _ s⟩

/-- Only the end of a text ends a comment that is its last token. -/
theorem Tiles.comment_stop (h : Tiles Heads offset text ts) : ∀ t ∈ ts.getLast?, ∀ comment,
    t.value = .comment comment → t.span.stop = offset + byteLength text := by
  induction h with
  | nil offset => simp
  | @blank offset c rest ts hc _ ih =>
    intro t ht comment hcomment
    rw [ih t ht comment hcomment, byteLength, Nat.add_assoc]
  | @value offset w rest b ts hne hb h ih =>
    intro t ht comment hcomment
    cases ts with
    | nil =>
      obtain rfl := Option.some.inj ht
      obtain rfl : b = .comment comment := hcomment
      obtain ⟨-, -, rfl | ⟨more, rfl⟩⟩ := heads_comment_iff.1 hb
      · rw [List.append_nil]
        rfl
      · exact absurd rfl h.ne_nil_of_feed
    | cons u ts =>
      rw [List.getLast?_cons_cons] at ht
      rw [ih t ht comment hcomment, byteLength_append, Nat.add_assoc]

end Tokens

/-! ### Documents -/

section Documents

variable {α : Type} [Numeral α] {source : String}

/-- The text that a piece of a source quotes. -/
def Piece.quotedText? : Piece α → Option String
  | .token t => t.quotedText?
  | .stray _ => none

/-- **A source without line feeds in its quoted texts.** -/
def Unbroken (α : Type) [Numeral α] (source : String) : Prop :=
  ∀ p ∈ pieces (α := α) 0 source.toList, ∀ text ∈ p.value.quotedText?, '\n' ∉ text.toList

instance (source : String) : Decidable (Unbroken α source) :=
  inferInstanceAs (Decidable (∀ p ∈ pieces (α := α) 0 source.toList, ∀ text ∈ p.value.quotedText?,
    '\n' ∉ text.toList))

/-- Where all of a source are tokens, only these have quoted texts. -/
theorem unbroken_iff {ts : Parsing.Tokens α} (hts : Tiles Heads 0 source.toList ts) :
    Unbroken α source ↔ ∀ t ∈ ts, ∀ text ∈ t.value.quotedText?, '\n' ∉ text.toList := by
  rw [Unbroken, hts.pieces, List.forall_mem_map]
  rfl

omit [Numeral α] in
/-- Quoted texts are no comments. -/
theorem Recommented.map_quotedText? {f g : String → String} {ts us : Parsing.Tokens α}
    (h : Recommented f g ts us) :
    us.map (·.value.quotedText?) = ts.map (·.value.quotedText?) := by
  have htoken : ∀ (t : Token α) (f : String → String),
      (t.recomment f).quotedText? = t.quotedText? := by
    intro t f
    cases t <;> rfl
  induction ts generalizing us with
  | nil =>
    obtain rfl := Recommented.nil_iff.1 h
    rfl
  | cons t ts ih =>
    obtain ⟨s, us, rfl, hus⟩ := h.cons
    rw [List.map_cons, List.map_cons, htoken, ih hus]

variable [Scalar α]

/-- Tokens that make up a document do so with other comments. -/
theorem Grammar.IsDocument.exists_recommented {ts us : Parsing.Tokens α} {d : Document α}
    {f g : String → String} (h : IsDocument ts d) (hts : Tiles Heads 0 source.toList ts)
    (hus : Recommented f g ts us) : ∃ d', IsDocument us d' ∧
      d'.bare = (d.recomment f g source.utf8ByteSize).bare := by
  refine h.recommented hus hts.inOrder_source fun t ht comment hcomment => ?_
  rw [hts.comment_stop t ht comment hcomment, Nat.zero_add, byteLength_toList]

/-- A document that is read without carriage returns is read with them. -/
theorem exists_parse_crlf (hreturn : '\r' ∉ source.toList) (hquoted : Unbroken α source)
    {d : Document α} (h : parse source = .ok d) : Unbroken α (crlf source) ∧
      ∃ d', parse (crlf source) = .ok d' ∧
        d'.bare = (d.recomment withReturn id source.utf8ByteSize).bare := by
  obtain ⟨ts, hlex, hdocument⟩ := parse_eq_ok_iff_isDocument.1 h
  have hts := lex_eq_ok_iff.1 hlex
  have hwords := (unbroken_iff hts).1 hquoted
  obtain ⟨us, hus, hvalues⟩ := hts.exists_returned hreturn hwords 0
  obtain ⟨d', hd', hbare⟩ := hdocument.exists_recommented hts hvalues
  have hus : Tiles Heads 0 (crlf source).toList us := by rwa [crlf, String.toList_ofList]
  refine ⟨(unbroken_iff hus).2 fun u hu text htext => ?_,
    d', parse_eq_ok_iff_isDocument.2 ⟨us, lex_eq_ok_iff.2 hus, hd'⟩, hbare⟩
  -- the same texts are quoted
  have hmem : u.value.quotedText? ∈ ts.map (·.value.quotedText?) := by
    rw [← hvalues.map_quotedText?]
    exact List.mem_map_of_mem hu
  obtain ⟨t, ht, hquotes⟩ := List.mem_map.1 hmem
  exact hwords t ht text (hquotes ▸ htext)

/-- A document that is read with carriage returns is read without them. -/
theorem exists_parse_of_crlf (hquoted : Unbroken α (crlf source)) {d : Document α}
    (h : parse (crlf source) = .ok d) : ∃ d' : Document α, parse source = .ok d' := by
  obtain ⟨us, hlex, hdocument⟩ := parse_eq_ok_iff_isDocument.1 h
  have hus := lex_eq_ok_iff.1 hlex
  have hwords := (unbroken_iff hus).1 hquoted
  have hreturned : Tiles Heads 0 (returned source.toList) us := by
    rwa [crlf, String.toList_ofList] at hus
  obtain ⟨ts, hts, hvalues⟩ := hreturned.exists_of_returned hwords 0
  have hundo : Recommented withoutReturn id us ts :=
    hvalues.undo withoutReturn_withReturn fun _ => rfl
  obtain ⟨d', hd', -⟩ := hdocument.exists_recommented hus hundo
  exact ⟨d', parse_eq_ok_iff_isDocument.2 ⟨ts, lex_eq_ok_iff.2 hts, hd'⟩⟩

/-- **Ends of lines.** A source with line feeds alone, none of them in a quoted text, is read just
if it is read with carriage returns before them and none of its quoted texts has come to hold one.
The documents are then the same up to places and comments: every comment but one at the very end
of the source has a carriage return at its end. -/
theorem parse_crlf (hreturn : '\r' ∉ source.toList) (hquoted : Unbroken α source) :
    ((∃ d : Document α, parse source = .ok d) ↔
      Unbroken α (crlf source) ∧ ∃ d : Document α, parse (crlf source) = .ok d) ∧
    ∀ d d' : Document α, parse source = .ok d → parse (crlf source) = .ok d' →
      d'.bare = (d.recomment withReturn id source.utf8ByteSize).bare := by
  refine ⟨⟨?_, ?_⟩, fun d d' h h' => ?_⟩
  · rintro ⟨d, h⟩
    obtain ⟨hquoted', d', h', -⟩ := exists_parse_crlf hreturn hquoted h
    exact ⟨hquoted', d', h'⟩
  · rintro ⟨hquoted', d, h⟩
    exact exists_parse_of_crlf hquoted' h
  · obtain ⟨-, d'', h'', hbare⟩ := exists_parse_crlf hreturn hquoted h
    obtain rfl := Except.ok.inj (h'.symm.trans h'')
    exact hbare

end Documents

/-- A quoted text stays open over the end of its line behind a backslash, and only with a carriage
return. -/
example : let source := "box a \x7b label: \"x\\\ny\" \x7d"
    (parse (α := FixedPoint) source).toOption.isSome = false ∧
      (parse (α := FixedPoint) (crlf source)).toOption.isSome = true := by decide +kernel

/-- A declaration with a comment, a block with one, and a comment at the end. -/
def remarked : String :=
  "box a // first\nbox b \x7b label: \"x\"; // inner\n\x7d // last"

theorem remarked_crlf : '\r' ∉ remarked.toList ∧ Unbroken FixedPoint remarked ∧
    ∃ d d' : Document FixedPoint, parse remarked = .ok d ∧ parse (crlf remarked) = .ok d' ∧
      d'.bare = (d.recomment withReturn id remarked.utf8ByteSize).bare := by
  have hreturn : '\r' ∉ remarked.toList := by decide +kernel
  have hquoted : Unbroken FixedPoint remarked := by decide +kernel
  have hread : (parse (α := FixedPoint) remarked).toOption.isSome = true := by decide +kernel
  obtain ⟨d, hd⟩ := Option.isSome_iff_exists.1 hread
  have h := eq_ok_of_toOption hd
  obtain ⟨hiff, hbare⟩ := parse_crlf (α := FixedPoint) hreturn hquoted
  obtain ⟨-, d', h'⟩ := hiff.1 ⟨d, h⟩
  exact ⟨hreturn, hquoted, d, d', h, h', hbare d d' h h'⟩

/-- Carriage returns are not only a matter of places. -/
theorem remarked_differs : ¬ ∀ source : String, '\r' ∉ source.toList →
    Unbroken FixedPoint source →
      ((∃ d : Document FixedPoint, parse source = .ok d) ↔
        ∃ d : Document FixedPoint, parse (crlf source) = .ok d) ∧
      ∀ d d' : Document FixedPoint, parse source = .ok d → parse (crlf source) = .ok d' →
        d'.bare = d.bare := by
  intro hall
  have hread : (parse (α := FixedPoint) remarked).toOption.isSome = true ∧
      (parse (α := FixedPoint) (crlf remarked)).toOption.isSome = true ∧
      (parse (α := FixedPoint) (crlf remarked)).toOption.map Document.bare ≠
        (parse (α := FixedPoint) remarked).toOption.map Document.bare := by decide +kernel
  obtain ⟨hsource, hcrlf, hne⟩ := hread
  obtain ⟨d, hd⟩ := Option.isSome_iff_exists.1 hsource
  obtain ⟨d', hd'⟩ := Option.isSome_iff_exists.1 hcrlf
  have hbare := (hall remarked (by decide +kernel) (by decide +kernel)).2 d d'
    (eq_ok_of_toOption hd) (eq_ok_of_toOption hd')
  rw [hd, hd'] at hne
  exact hne (congrArg some hbare)

end Schematic
