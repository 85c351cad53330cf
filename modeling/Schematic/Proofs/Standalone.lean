import Mathlib
import Schematic.Proofs.FixedPoint
import Schematic.Proofs.Lines
import Schematic.Proofs.Outcome
import Schematic.Proofs.Printing

/-!
# Equations that stand alone

An equation can be read from a text of its own, or from a line of a document. Both read the
same equations: one goes through the tokens part by part and looks ahead for dots, the other
reads a whole document, and each takes exactly the tokens that make up an equation.

* `Grammar.IsEquation`: the tokens of an equation with the comment on its line.
* `Equation.ofText_eq_ok_iff`: a text of its own.
* `Grammar.isDocument_constrain_iff`: a document of one line.
* `lex_constrain_iff`: the tokens of such a line are those of the text after the keyword.
* `Equation.ofText_iff_parse`: the two read the same.
-/

namespace Schematic

variable {α : Type}

/-! ### Tokens of a part of a source -/

section Tokens

variable [Numeral α] {text rest : List Char} {source : String} {ts : List (Token α)}

/-- The tokens of one line hold no line break, since a line break is read from one only. -/
theorem ne_lineBreak_of_lex {tokens : List (Located (Token α))} (hline : '\n' ∉ source.toList)
    (h : lex source = .ok tokens) : ∀ t ∈ tokens, t.value ≠ .lineBreak := by
  intro t ht hbreak
  obtain ⟨w, rest, ⟨before, after, htext, -⟩, -, hw⟩ := (lex_eq_ok_iff.1 h).exists_cut ht
  rw [hbreak] at hw
  rw [hw.spelling rfl] at htext
  rw [htext] at hline
  simp at hline

/-- What the pieces of a text are does not depend on where it stands. -/
theorem pieces_map_value (offset offset' : ℕ) (text : List Char) :
    (pieces (α := α) offset text).map (·.value) = (pieces offset' text).map (·.value) := by
  induction hn : text.length using Nat.strong_induction_on generalizing offset offset' text with
  | _ n ih =>
    cases text with
    | nil => simp [pieces]
    | cons c rest =>
      have hrest : ∀ o o' k, (pieces (α := α) o (rest.drop k)).map (·.value) =
          (pieces o' (rest.drop k)).map (·.value) := by
        intro o o' k
        refine ih _ ?_ o o' _ rfl
        rw [← hn, List.length_drop, List.length_cons]
        omega
      cases hc : Lexeme.isBlank c with
      | true =>
        rw [pieces_blank hc, pieces_blank hc]
        exact hrest _ _ 0
      | false =>
        rw [pieces, pieces, hc]
        cases Lexeme.atHead? (α := α) (c :: rest) with
        | some l => exact congrArg (_ :: ·) (hrest _ _ _)
        | none => exact congrArg (_ :: ·) (hrest _ _ _)

/-- **A source has tokens** if and only if it spells them. -/
theorem exists_lex_iff_spells : (∃ tokens, lex source = .ok tokens ∧ tokens.map (·.value) = ts) ↔
    Spells source.toList ts := by
  constructor
  · rintro ⟨tokens, hlex, rfl⟩ offset
    rw [pieces_map_value offset 0, (lex_eq_ok_iff.1 hlex).pieces, List.map_map, List.map_map]
    rfl
  · intro h
    exact h.lex

/-- **A keyword before a text** adds its token, and leaves the tokens of the text as they are. -/
theorem spells_keyword_iff {w : String} (hw : w ∈ keywords) :
    Spells (w.toList ++ ' ' :: rest) ts ↔ ∃ us, ts = .ofWord w :: us ∧ Spells rest us := by
  constructor
  · intro h
    have hword := isWord_of_mem_keywords w hw
    have hstop : Stops Lexeme.isNamePart (' ' :: rest) := Parted.blank.stops_name
    have hhead := Lexeme.atHead?_word (α := α) hword hstop
    -- the keyword is the first piece, and the blank after it is none
    have htext := h 0
    rw [pieces_append hword.ne_nil hhead, pieces_blank rfl, List.map_cons] at htext
    obtain ⟨t, us, rfl, ht, hus⟩ := List.map_eq_cons_iff.1 htext.symm
    refine ⟨us, ?_, fun offset => ?_⟩
    · rw [String.ofList_toList] at ht
      rw [Piece.token.inj ht]
    · rw [hus, pieces_map_value offset]
  · rintro ⟨us, rfl, h⟩
    exact spells_keyword hw h

/-- **The tokens of a constraint** are its keyword and those of the text after it. -/
theorem lex_constrain_iff :
    (∃ tokens, lex ("constrain " ++ source) = .ok tokens ∧ tokens.map (·.value) = ts) ↔
      ∃ us tokens, ts = .constrain :: us ∧ lex source = .ok tokens ∧ tokens.map (·.value) = us := by
  have htext : ("constrain " ++ source).toList = "constrain".toList ++ ' ' :: source.toList := by
    rw [String.toList_append]
    rfl
  have hkeyword : "constrain" ∈ keywords := by simp [keywords]
  rw [exists_lex_iff_spells, htext, spells_keyword_iff hkeyword]
  simp only [← exists_lex_iff_spells, Token.ofWord, exists_and_left]

end Tokens

/-! ### The equation of a line -/

namespace Grammar

open Parsing (Tokens)

variable {ts us vs : Tokens α}

/-- **The tokens of an equation**: its parts, and the comment on its line. -/
inductive IsEquation [Scalar α] : Tokens α → Equation α → Prop
  | parts {us vs : Tokens α} {ps : List (Part α)} {comment : Option String} {e : Equation α}
    (h : IsParts us ps) (hcomment : IsTrailing vs comment)
    (he : Equation.ofParts (ps ++ (comment.map Part.comment).toList) = .ok e) :
    IsEquation (us ++ vs) e

/-! Only what the tokens are counts, and not where they stand. -/

theorem IsTail.congr {tail : List String} (h : IsTail ts tail)
    (hts : us.map (·.value) = ts.map (·.value)) : IsTail us tail := by
  induction h generalizing us with
  | nil =>
    obtain rfl := List.map_eq_nil_iff.1 hts
    exact .nil
  | cons name _ ih =>
    obtain ⟨d, us, rfl, hus⟩ := Located.exists_of_map_eq_cons hts
    obtain ⟨s, us, rfl, hrest⟩ := Located.exists_of_map_eq_cons hus
    exact .cons name (ih hrest)

theorem IsPart.congr {p : Part α} (h : IsPart ts p) (hts : us.map (·.value) = ts.map (·.value)) :
    IsPart us p := by
  cases h with
  | token hstands =>
    obtain ⟨s, us, rfl, hus⟩ := Located.exists_of_map_eq_cons hts
    obtain rfl := List.map_eq_nil_iff.1 hus
    exact .token hstands
  | reference htail =>
    obtain ⟨s, us, rfl, hus⟩ := Located.exists_of_map_eq_cons hts
    exact .reference (htail.congr hus)

theorem IsParts.congr {ps : List (Part α)} (h : IsParts ts ps)
    (hts : us.map (·.value) = ts.map (·.value)) : IsParts us ps := by
  induction h generalizing us with
  | nil =>
    obtain rfl := List.map_eq_nil_iff.1 hts
    exact .nil
  | cons hp _ ih =>
    rw [List.map_append] at hts
    obtain ⟨us, ws, rfl, hus, hws⟩ := List.map_eq_append_iff.1 hts
    exact .cons (hp.congr hus) (ih hws)

theorem IsTrailing.congr {comment : Option String} (h : IsTrailing ts comment)
    (hts : us.map (·.value) = ts.map (·.value)) : IsTrailing us comment := by
  cases h with
  | none =>
    obtain rfl := List.map_eq_nil_iff.1 hts
    exact .none
  | some text s =>
    obtain ⟨s', us, rfl, hus⟩ := Located.exists_of_map_eq_cons hts
    obtain rfl := List.map_eq_nil_iff.1 hus
    exact .some text s'

variable [Scalar α] {e : Equation α}

/-- **The places of tokens** do not matter to the equation they make up. -/
theorem IsEquation.congr (h : IsEquation ts e) (hts : us.map (·.value) = ts.map (·.value)) :
    IsEquation us e := by
  cases h with
  | parts hparts hcomment he =>
    rw [List.map_append] at hts
    obtain ⟨us, ws, rfl, hus, hws⟩ := List.map_eq_append_iff.1 hts
    exact .parts (hparts.congr hus) (hcomment.congr hws) he

/-- Where an equation ends at the end of its line, its parts and its comment are read. -/
theorem IsEquation.readParts (h : IsEquation ts e) :
    (Parsing.takeComment (Schematic.readParts ts).2).2 = [] ∧
      Equation.ofParts ((Schematic.readParts ts).1 ++
        ((Parsing.takeComment (Schematic.readParts ts).2).1.map Part.comment).toList) = .ok e := by
  cases h with
  | @parts us vs ps comment _ hparts hcomment he =>
    have hend : AtLineEnd ([] : Tokens α) := by simp [AtLineEnd]
    have hafter := hcomment.afterParts hend
    have htaken := hcomment.takeComment hend
    rw [List.append_nil] at hafter htaken
    rw [hparts.readParts hafter, htaken]
    exact ⟨rfl, he⟩

/-- **An equation is read** if its parts, and the comment after them, are all there is. -/
theorem isEquation_iff : IsEquation ts e ↔
    (Parsing.takeComment (Schematic.readParts ts).2).2 = [] ∧
      Equation.ofParts ((Schematic.readParts ts).1 ++
        ((Parsing.takeComment (Schematic.readParts ts).2).1.map Part.comment).toList) = .ok e := by
  constructor
  · intro h
    exact h.readParts
  · rintro ⟨hnil, he⟩
    obtain ⟨us, hparts, hts⟩ := Parsing.exists_isParts ts
    obtain ⟨vs, hcomment, hrest⟩ := Parsing.exists_isTrailing (Schematic.readParts ts).2
    rw [hnil, List.append_nil] at hrest
    have hequation := IsEquation.parts hparts hcomment he
    rwa [← hrest, ← hts] at hequation

end Grammar

/-! ### A text of its own -/

/-- The parts of a text of its own are all its tokens. -/
theorem allParts_eq_ok_iff {ts : Parsing.Tokens α} {ps : List (Part α)} : allParts ts = .ok ps ↔
    (Parsing.takeComment (readParts ts).2).2 = [] ∧
      (readParts ts).1 ++ ((Parsing.takeComment (readParts ts).2).1.map Part.comment).toList = ps := by
  unfold allParts
  simp only
  split
  · rename_i hrest
    simp [hrest, Parsing.takeComment]
  · rename_i text s hrest
    simp [hrest, Parsing.takeComment]
  · rename_i text s next rest hrest
    simp [hrest, Parsing.takeComment]
  · rename_i s rest hrest
    split <;> simp [hrest, Parsing.takeComment]
  · rename_i next rest hcomment hmore hdot hrest
    -- neither a comment nor a dot follows the parts, so something else is left over
    have hleft : (Parsing.takeComment (next :: rest)).2 = next :: rest := by
      unfold Parsing.takeComment
      split
      · rename_i text s after heq
        obtain ⟨hnext, rfl⟩ := List.cons.inj heq
        cases rest with
        | nil => exact (hcomment text s hnext rfl).elim
        | cons t rest => exact (hmore text s t rest hnext rfl).elim
      · rfl
    rw [hrest, hleft]
    simp

/-- **A text of its own** is an equation if its tokens are those of one. -/
theorem Equation.ofText_eq_ok_iff [Scalar α] [Numeral α] {text : String} {e : Equation α} :
    Equation.ofText text = .ok e ↔ ∃ tokens, lex text = .ok tokens ∧ Grammar.IsEquation tokens e := by
  unfold Equation.ofText
  cases hlex : lex (α := α) text with
  | error strays => simp
  | ok tokens =>
    simp only [except_bind_eq_ok, allParts_eq_ok_iff, Grammar.isEquation_iff, Except.ok.injEq,
      exists_eq_left']
    constructor
    · rintro ⟨ps, ⟨hnil, rfl⟩, he⟩
      exact ⟨hnil, he⟩
    · rintro ⟨hnil, he⟩
      exact ⟨_, ⟨hnil, rfl⟩, he⟩

/-! ### A document of one line -/

section Documents

variable [Scalar α]

/-- Nothing makes up no equation, and a comment alone does not either. -/
theorem Equation.parts_ne_nil {ps : List (Part α)} {comment : Option String} {e : Equation α}
    (he : Equation.ofParts (ps ++ (comment.map Part.comment).toList) = .ok e) : ps ≠ [] := by
  rintro rfl
  rw [Equation.ofParts_eq_ok, Equation.assemble_eq_ok_iff] at he
  obtain ⟨rest, hsplit, -⟩ := he
  cases comment <;> simp [Equation.splitLeft] at hsplit

namespace Grammar

open Parsing (Tokens)

variable {ts : Tokens α} {k : Span}

omit [Scalar α] in
/-- Without separators there is room for one phrase at most. -/
theorem Listing.of_no_separator {β : Type} {sep : Token α → Prop} {P : Tokens α → β → Prop}
    {bs : List β} (h : Listing sep P ts bs) (hts : ∀ t ∈ ts, ¬sep t.value) (hne : ts ≠ []) :
    ∃ b, P ts b ∧ bs = [b] := by
  have hnil : ∀ seps : Tokens α, (∀ t ∈ seps, sep t.value) → (∀ t ∈ seps, t ∈ ts) → seps = [] := by
    intro seps hseps hmem
    rw [List.eq_nil_iff_forall_not_mem]
    intro t ht
    exact hts t (hmem t ht) (hseps t ht)
  cases h with
  | empty hseps => exact absurd (hnil ts hseps fun t ht => ht) hne
  | @items lead us trail bs hlead hitems htrail =>
    obtain rfl := hnil lead hlead fun t ht => by simp [ht]
    obtain rfl := hnil trail htrail fun t ht => by simp [ht]
    rw [List.nil_append, List.append_nil]
    cases hitems with
    | one hb => exact ⟨_, hb, rfl⟩
    | cons _ hseps hall _ => exact absurd (hnil _ hall fun t ht => by simp [ht]) hseps

/-- The line of a constraint is its keyword and an equation. -/
theorem IsLine.exists_isEquation {l : Located (Declaration α)}
    (h : IsLine (⟨.constrain, k⟩ :: ts) l) :
    ∃ e s, IsEquation ts e ∧ Covers (⟨.constrain, k⟩ :: ts) s ∧ l = ⟨⟨.constrain e, none⟩, s⟩ := by
  obtain ⟨value, s⟩ := l
  obtain ⟨hdeclaration, hcovers⟩ := h
  generalize hline : ⟨.constrain, k⟩ :: ts = line at hdeclaration hcovers
  cases hdeclaration with
  | item hitem _ => cases hitem <;> simp at hline
  | constrain hparts _ hcomment he =>
    obtain ⟨-, rfl⟩ := List.cons.inj hline
    exact ⟨_, s, .parts hparts hcomment he, hcovers, rfl⟩
  | comment => simp at hline

theorem IsEquation.isLine {e : Equation α} {s : Span} (h : IsEquation ts e)
    (hs : Covers (⟨.constrain, k⟩ :: ts) s) :
    IsLine (⟨.constrain, k⟩ :: ts) ⟨⟨.constrain e, none⟩, s⟩ := by
  cases h with
  | parts hparts hcomment he =>
    exact ⟨.constrain hparts (Equation.parts_ne_nil he) hcomment he, hs⟩

/-- **A line with a constraint** is a document of that constraint and nothing else. -/
theorem isDocument_constrain_iff {d : Document α} (hts : ∀ t ∈ ts, t.value ≠ .lineBreak) :
    IsDocument (⟨.constrain, k⟩ :: ts) d ↔ ∃ e s, IsEquation ts e ∧
      Covers (⟨.constrain, k⟩ :: ts) s ∧ d = ⟨[⟨⟨.constrain e, none⟩, s⟩]⟩ := by
  obtain ⟨ds⟩ := d
  constructor
  · intro h
    have hall : ∀ t ∈ (⟨.constrain, k⟩ :: ts : Tokens α), ¬IsLineBreak t.value :=
      List.forall_mem_cons.2 ⟨by simp [IsLineBreak], hts⟩
    obtain ⟨l, hl, hds⟩ := Listing.of_no_separator h hall (List.cons_ne_nil _ _)
    obtain ⟨e, s, hequation, hcovers, rfl⟩ := hl.exists_isEquation
    exact ⟨e, s, hequation, hcovers, congrArg Document.mk hds⟩
  · rintro ⟨e, s, hequation, hcovers, hd⟩
    obtain rfl := Document.mk.inj hd
    have hnone : ∀ t ∈ ([] : Tokens α), IsLineBreak t.value := by simp
    have hone : Separated IsLineBreak IsLine (⟨.constrain, k⟩ :: ts) [⟨⟨.constrain e, none⟩, s⟩] :=
      .one (hequation.isLine hcovers)
    have hlisting := hone.listing hnone
    rwa [List.append_nil] at hlisting

omit [Scalar α] in
theorem exists_covers (t : Located (Token α)) (ts : Tokens α) : ∃ s, Covers (t :: ts) s := by
  have hlast := List.getLast?_eq_some_getLast (List.cons_ne_nil t ts)
  refine ⟨⟨t.span.start, ((t :: ts).getLast (List.cons_ne_nil t ts)).span.stop⟩, rfl, ?_⟩
  rw [EndsAt, hlast]
  rfl

end Grammar

variable [Numeral α]

namespace Equation

variable {text : String}

/-- An equation with a text of its own is the constraint of a line. -/
theorem exists_parse {e : Equation α} (hline : '\n' ∉ text.toList) (h : ofText text = .ok e) :
    ∃ s, parse ("constrain " ++ text) = .ok ⟨[⟨⟨.constrain e, none⟩, s⟩]⟩ := by
  obtain ⟨tokens, hlex, hequation⟩ := ofText_eq_ok_iff.1 h
  obtain ⟨all, hall, hvalues⟩ := lex_constrain_iff.2 ⟨_, tokens, rfl, hlex, rfl⟩
  obtain ⟨k, ts, rfl, hts⟩ := Located.exists_of_map_eq_cons hvalues
  have hnone : ∀ t ∈ ts, t.value ≠ .lineBreak := by
    intro t ht
    have hmem : t.value ∈ tokens.map (·.value) := hts ▸ List.mem_map_of_mem ht
    obtain ⟨u, hu, hvalue⟩ := List.mem_map.1 hmem
    rw [← hvalue]
    exact ne_lineBreak_of_lex hline hlex u hu
  obtain ⟨s, hs⟩ := Grammar.exists_covers ⟨.constrain, k⟩ ts
  have hdocument := (Grammar.isDocument_constrain_iff hnone).2 ⟨e, s, hequation.congr hts, hs, rfl⟩
  exact ⟨s, parse_eq_ok_iff_isDocument.2 ⟨_, hall, hdocument⟩⟩

/-- The line of a constraint holds nothing but its equation. -/
theorem exists_ofText {d : Document α} (hline : '\n' ∉ text.toList)
    (h : parse ("constrain " ++ text) = .ok d) :
    ∃ e s, ofText text = .ok e ∧ d = ⟨[⟨⟨.constrain e, none⟩, s⟩]⟩ := by
  obtain ⟨all, hall, hdocument⟩ := parse_eq_ok_iff_isDocument.1 h
  obtain ⟨us, tokens, hvalues, hlex, hus⟩ := lex_constrain_iff.1 ⟨all, hall, rfl⟩
  obtain ⟨k, ts, rfl, hts⟩ := Located.exists_of_map_eq_cons hvalues
  have hline' : '\n' ∉ ("constrain " ++ text).toList := by
    rw [String.toList_append, List.mem_append]
    rintro (hmem | hmem)
    · revert hmem
      decide
    · exact hline hmem
  have hnone : ∀ t ∈ ts, t.value ≠ .lineBreak := fun t ht =>
    ne_lineBreak_of_lex hline' hall t (List.mem_cons_of_mem _ ht)
  obtain ⟨e, s, hequation, -, rfl⟩ := (Grammar.isDocument_constrain_iff hnone).1 hdocument
  exact ⟨e, s, ofText_eq_ok_iff.2 ⟨tokens, hlex, hequation.congr (hus.trans hts.symm)⟩, rfl⟩

/-- **Equations read the same** from a text of their own and from a line of a document. A text
without line breaks spells an equation if and only if the line that asks for it is a document;
then this is the only declaration, with the same comment and none besides. -/
theorem ofText_iff_parse (hline : '\n' ∉ text.toList) :
    (∀ e : Equation α, ofText text = .ok e ↔
      ∃ s, parse ("constrain " ++ text) = .ok ⟨[⟨⟨.constrain e, none⟩, s⟩]⟩) ∧
    ∀ d : Document α, parse ("constrain " ++ text) = .ok d →
      ∃ e s, ofText text = .ok e ∧ d = ⟨[⟨⟨.constrain e, none⟩, s⟩]⟩ := by
  refine ⟨fun e => ⟨exists_parse hline, ?_⟩, fun d => exists_ofText hline⟩
  rintro ⟨s, h⟩
  obtain ⟨e', s', he, hd⟩ := exists_ofText hline h
  -- a document has one equation only, so the two are the same
  simp only [Document.mk.injEq, List.cons.injEq, Located.mk.injEq, Declaration.mk.injEq,
    Item.constrain.injEq, and_true] at hd
  obtain ⟨rfl, rfl⟩ := hd
  exact he

/-- A single sign for equality, a dot with blanks around it, and a comment. -/
def spaced : String := "a . left=b.right+30//gap"

theorem spaced_read : '\n' ∉ spaced.toList ∧
    ∃ e s, ofText (α := FixedPoint) spaced = .ok e ∧ e.comment = some "gap" ∧
      parse ("constrain " ++ spaced) = .ok ⟨[⟨⟨.constrain e, none⟩, s⟩]⟩ := by
  have hline : '\n' ∉ spaced.toList := by decide +kernel
  have hread : ((ofText (α := FixedPoint) spaced).toOption.map (·.comment)) = some (some "gap") := by
    decide +kernel
  obtain ⟨e, he, hcomment⟩ := Option.map_eq_some_iff.1 hread
  have hok := eq_ok_of_toOption he
  obtain ⟨s, hparse⟩ := ((ofText_iff_parse hline).1 e).1 hok
  exact ⟨hline, e, s, hok, hcomment, hparse⟩

end Equation

end Documents

end Schematic
