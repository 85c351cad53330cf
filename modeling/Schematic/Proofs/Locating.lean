import Schematic.Proofs.FixedPoint
import Schematic.Proofs.Lines
import Schematic.Proofs.Outcome
import Schematic.Proofs.Tiling

/-!
# Places in a source

What was read from a source stands where its spans say. Spans are put together from those of
tokens, so a phrase reaches from its first token to its last one. Cut out of the source, the
characters of a declaration are the same tokens again, only earlier, and so the same declaration.

* `Tiles.slice`: the part of a text that some of its tokens make up.
* `Grammar.IsLine.back`: a declaration of tokens that stand earlier.
* `Grammar.Run.inOrder`, `Grammar.Run.sep_or_phrase`: the phrases of a listing in their places.
* `parse_places`: what the spans of a document are.
-/

namespace Schematic

/-! ### Parts of a text -/

section Slices

variable {β : Type} {P : List Char → List Char → β → Prop} {offset : ℕ} {text : List Char}
  {v : Located β} {us vs before after : List (Located β)}

/-- What a value is written with does not depend on how far the text goes on behind it. -/
def Cuttable (P : List Char → List Char → β → Prop) : Prop :=
  ∀ w rest part b, P w rest b → part <+: rest → P w part b

/-- The blanks before the first value. -/
theorem Tiles.skip (h : Tiles P offset text (v :: vs)) : ∃ left right, text = left ++ right ∧
    offset + byteLength left = v.span.start ∧ Tiles P v.span.start right (v :: vs) := by
  generalize hvs : v :: vs = all at h
  induction h with
  | nil offset => simp at hvs
  | @blank offset c rest all hc h ih =>
    obtain ⟨left, right, rfl, hleft, hright⟩ := ih hvs
    refine ⟨c :: left, right, rfl, ?_, hright⟩
    rw [byteLength, ← hleft]
    omega
  | @value offset w rest b all hne hb h ih =>
    obtain ⟨rfl, rfl⟩ := List.cons.inj hvs
    exact ⟨[], w ++ rest, rfl, rfl, .value hne hb h⟩

/-- **A text is cut behind a value.** What the values before are written with does not depend on
what comes after. -/
theorem Tiles.split (hP : Cuttable P)
    (h : Tiles P offset text (us ++ vs)) (hne : us ≠ []) : ∃ left right, text = left ++ right ∧
      us.getLast?.map (·.span.stop) = some (offset + byteLength left) ∧
      Tiles P offset left us ∧ Tiles P (offset + byteLength left) right vs := by
  generalize hall : us ++ vs = all at h
  induction h generalizing us with
  | nil offset => exact absurd (List.append_eq_nil_iff.1 hall).1 hne
  | @blank offset c rest all hc h ih =>
    obtain ⟨left, right, rfl, hlast, hleft, hright⟩ := ih hne hall
    rw [Nat.add_assoc] at hlast hright
    exact ⟨c :: left, right, rfl, hlast, .blank hc hleft, hright⟩
  | @value offset w rest b all hw hb h ih =>
    obtain ⟨u, us, rfl⟩ := List.exists_cons_of_ne_nil hne
    obtain ⟨rfl, rfl⟩ := List.cons.inj hall
    cases us with
    | nil =>
      have hword : Tiles P offset (w ++ []) [⟨b, ⟨offset, offset + byteLength w⟩⟩] :=
        .value hw (hP _ _ _ _ hb List.nil_prefix) (.nil _)
      rw [List.append_nil] at hword
      exact ⟨w, rest, rfl, rfl, hword, h⟩
    | cons u us =>
      obtain ⟨left, right, rfl, hlast, hleft, hright⟩ := ih (List.cons_ne_nil u us) rfl
      have hlength : offset + byteLength w + byteLength left = offset + byteLength (w ++ left) := by
        rw [byteLength_append, Nat.add_assoc]
      rw [hlength] at hlast hright
      exact ⟨w ++ left, right, (List.append_assoc _ _ _).symm, hlast,
        .value hw (hP _ _ _ _ hb (List.prefix_append left right)) hleft, hright⟩

/-- **The part of a text that some of its values make up**, from the start of the first one to the
end of the last one. -/
theorem Tiles.slice (hP : Cuttable P)
    (h : Tiles P offset text (before ++ us ++ after)) {s : Span}
    (hstart : us.head?.map (·.span.start) = some s.start)
    (hstop : us.getLast?.map (·.span.stop) = some s.stop) : ∃ left piece right,
      text = left ++ piece ++ right ∧ offset + byteLength left = s.start ∧
      s.start + byteLength piece = s.stop ∧ Tiles P s.start piece us := by
  obtain ⟨v, us, rfl⟩ : ∃ v us', us = v :: us' := by
    cases us with
    | nil => simp at hstart
    | cons v us => exact ⟨v, us, rfl⟩
  obtain hstart : v.span.start = s.start := by simpa using hstart
  -- what comes before the values, and the blanks behind it
  obtain ⟨left, right, rfl, hright⟩ : ∃ left right, text = left ++ right ∧
      Tiles P (offset + byteLength left) right (v :: us ++ after) := by
    rw [List.append_assoc] at h
    cases before with
    | nil => exact ⟨[], text, rfl, h⟩
    | cons b before =>
      obtain ⟨left, right, rfl, -, -, hright⟩ := h.split hP (List.cons_ne_nil b before)
      exact ⟨left, right, rfl, hright⟩
  obtain ⟨blanks, right, rfl, hblanks, hright⟩ := hright.skip
  have hvalues : Tiles P v.span.start right ((v :: us) ++ after) := hright
  obtain ⟨piece, right, rfl, hlast, hpiece, -⟩ := hvalues.split hP (List.cons_ne_nil v us)
  rw [hstart] at hblanks hpiece hlast
  refine ⟨left ++ blanks, piece, right, by simp, ?_, ?_, hpiece⟩
  · rw [byteLength_append, ← hblanks, Nat.add_assoc]
  · rw [hstop] at hlast
    exact (Option.some.inj hlast).symm

theorem heads_cuttable {α : Type} [Numeral α] : Cuttable (Heads (α := α)) :=
  fun _ _ _ _ h hpart => h.of_part hpart

/-- A span where the text begins a number of bytes later. -/
def Span.back (k : ℕ) (s : Span) : Span := ⟨s.start - k, s.stop - k⟩

/-- A value where the text begins a number of bytes later. -/
def Located.back (k : ℕ) (v : Located β) : Located β := ⟨v.value, v.span.back k⟩

theorem Tiles.back {k : ℕ} (h : Tiles P offset text vs) (hk : k ≤ offset) :
    Tiles P (offset - k) text (vs.map (·.back k)) := by
  induction h with
  | nil offset => exact .nil _
  | @blank offset c rest vs hc h ih =>
    have hrest := ih (by omega)
    rw [Nat.sub_add_comm hk] at hrest
    exact .blank hc hrest
  | @value offset w rest b vs hne hb h ih =>
    have hrest := ih (by omega)
    rw [Nat.sub_add_comm hk] at hrest
    have hspan : (⟨offset, offset + byteLength w⟩ : Span).back k =
        ⟨offset - k, offset - k + byteLength w⟩ := by
      rw [Span.back, Nat.sub_add_comm hk]
    rw [List.map_cons, Located.back, hspan]
    exact .value hne hb hrest

end Slices

/-! ### Phrases that stand earlier -/

section Moved

variable {α : Type}

/-- What is declared, where the text begins a number of bytes later. -/
def Item.back (k : ℕ) : Item α → Item α
  | .boxStyle name fields => .boxStyle (name.back k) (fields.map (·.back k))
  | .box name fields => .box (name.back k) (fields.map (·.back k))
  | .connect source target fields =>
    .connect (source.back k) (target.back k) (fields.map (·.back k))
  | .constrain e => .constrain e
  | .comment text => .comment text

/-- **A declaration where the text begins a number of bytes later.** -/
def Declaration.back (k : ℕ) (l : Located (Declaration α)) : Located (Declaration α) :=
  ⟨⟨l.value.item.back k, l.value.trailing⟩, l.span.back k⟩

namespace Grammar

open Parsing (Tokens)

variable {β γ : Type} {sep : Token α → Prop} {P : Tokens α → β → Prop} {Q : Tokens α → γ → Prop}
  {us vs : Tokens α} {bs : List β} {k : ℕ}

theorem Run.back {f : β → γ} {ready : Bool} (h : Run sep P ready us bs)
    (hf : ∀ us b, P us b → Q (us.map (·.back k)) (f b)) :
    Run sep Q ready (us.map (·.back k)) (bs.map f) := by
  induction h with
  | nil ready => exact .nil ready
  | skip ready ht _ ih => exact .skip ready ht ih
  | item hb _ ih =>
    rw [List.map_append]
    exact .item (hf _ _ hb) ih

theorem IsTail.back {tail : List String} (h : IsTail us tail) :
    IsTail (us.map (·.back k)) tail := by
  induction h with
  | nil => exact .nil
  | cons name h ih => exact .cons name ih

theorem IsPart.back {p : Part α} (h : IsPart us p) : IsPart (us.map (·.back k)) p := by
  cases h with
  | token h => exact .token h
  | reference h => exact .reference h.back

theorem IsParts.back {ps : List (Part α)} (h : IsParts us ps) : IsParts (us.map (·.back k)) ps := by
  induction h with
  | nil => exact .nil
  | cons h _ ih =>
    rw [List.map_append]
    exact .cons h.back ih

theorem IsTrailing.back {trailing : Option String} (h : IsTrailing us trailing) :
    IsTrailing (us.map (·.back k)) trailing := by
  cases h with
  | none => exact .none
  | some text s => exact .some text (s.back k)

theorem Covers.back {s : Span} (h : Covers us s) : Covers (us.map (·.back k)) (s.back k) where
  start := by
    obtain ⟨t, ht, hstart⟩ := Option.map_eq_some_iff.1 h.start
    rw [List.head?_map, ht, Span.back, ← hstart]
    rfl
  stop := by
    obtain ⟨t, ht, hstop⟩ := Option.map_eq_some_iff.1 h.stop
    rw [EndsAt, List.getLast?_map, ht, Span.back, ← hstop]
    rfl

variable [Scalar α]

theorem IsEntry.back {f : Located (Field α)} (h : IsEntry us f) :
    IsEntry (us.map (·.back k)) (f.back k) := by
  cases h with
  | comment text s => exact .comment text (s.back k)
  | field h => exact .field h

theorem IsBlock.back {fields : List (Located (Field α))} (h : IsBlock us fields) :
    IsBlock (us.map (·.back k)) (fields.map (·.back k)) := by
  cases h with
  | braces h =>
    have hrun := (listing_iff_run.1 h).back (k := k) fun us f hf => hf.back
    rw [List.map_cons, List.map_append]
    exact .braces (listing_iff_run.2 hrun)

theorem IsItem.back {item : Item α} (h : IsItem us item) :
    IsItem (us.map (·.back k)) (item.back k) := by
  cases h with
  | boxStyle h => exact .boxStyle h.back
  | bareBox => exact .bareBox
  | box h => exact .box h.back
  | connect h => exact .connect h.back

theorem IsDeclaration.back {d : Declaration α} (h : IsDeclaration us d) :
    IsDeclaration (us.map (·.back k)) ⟨d.item.back k, d.trailing⟩ := by
  cases h with
  | item h htrailing =>
    rw [List.map_append]
    exact .item h.back htrailing.back
  | constrain h hne hcomment he =>
    rw [List.map_cons, List.map_append]
    exact .constrain h.back hne hcomment.back he
  | comment text s => exact .comment text (s.back k)

/-- **A declaration of tokens that stand earlier** is the same one, earlier. -/
theorem IsLine.back {l : Located (Declaration α)} (h : IsLine us l) :
    IsLine (us.map (·.back k)) (Declaration.back k l) := ⟨h.1.back, h.2.back⟩

end Grammar

end Moved

/-! ### Phrases in their places -/

namespace Grammar

open Parsing (Tokens)

variable {α β : Type} {us vs ts : Tokens α} {s outer : Span}

/-- **A phrase reaches** from its first token to its last one, holds all of them and ends before
the tokens behind it. -/
theorem Covers.inOrder (h : Covers us s)
    (hts : Span.InOrder outer ((us ++ ts).map (·.span))) :
    s.start < s.stop ∧ (outer.start ≤ s.start ∧ s.stop ≤ outer.stop) ∧
      Span.InOrder s (us.map (·.span)) ∧ Span.InOrder ⟨s.stop, outer.stop⟩ (ts.map (·.span)) := by
  obtain ⟨hstart, hstop⟩ := h
  induction us generalizing outer s with
  | nil => simp at hstart
  | cons t us ih =>
    have hfirst : t.span.start = s.start := by simpa using hstart
    have hcons := Span.inOrder_cons.1 hts
    obtain ⟨hne, ⟨hle, hle'⟩, hrest⟩ : t.span.start < t.span.stop ∧
      (outer.start ≤ t.span.start ∧ t.span.stop ≤ outer.stop) ∧
      Span.InOrder ⟨t.span.stop, outer.stop⟩ ((us ++ ts).map (·.span)) := hcons
    cases us with
    | nil =>
      have hlast : t.span.stop = s.stop := by simpa [EndsAt] using hstop
      have hone : Span.InOrder s ([t].map (·.span)) :=
        Span.inOrder_cons.2 ⟨hne, ⟨hfirst.ge, hlast.le⟩, .nil _⟩
      rw [← hfirst, ← hlast]
      exact ⟨hne, ⟨hle, hle'⟩, hone, hrest⟩
    | cons u us =>
      -- the rest of the phrase reaches from the second token to the same end
      have hstop' : EndsAt (u :: us) s.stop := by
        rwa [EndsAt, List.getLast?_cons_cons] at hstop
      obtain ⟨hlt, ⟨hbehind, hend⟩, hinner, hafter⟩ :=
        ih (s := ⟨u.span.start, s.stop⟩) hrest rfl hstop'
      simp only at hlt hbehind hend hafter
      have hin : t.span.stop ≤ s.stop := by omega
      have hall : Span.InOrder s ((t :: u :: us).map (·.span)) :=
        Span.inOrder_cons.2 ⟨hne, ⟨hfirst.ge, hin⟩, hinner.mono hbehind le_rfl⟩
      exact ⟨by omega, ⟨by omega, hend⟩, hall, hafter⟩

/-- **The phrases of a listing stand one behind the other.** -/
theorem Run.inOrder {sep : Token α → Prop} {P : Tokens α → Located β → Prop}
    {bs : List (Located β)} {ready : Bool} (hP : ∀ us b, P us b → Covers us b.span)
    (h : Run sep P ready ts bs) (hts : Span.InOrder outer (ts.map (·.span))) :
    Span.InOrder outer (bs.map (·.span)) := by
  induction h generalizing outer with
  | nil ready => exact .nil _
  | skip ready ht _ ih =>
    obtain ⟨hne, ⟨hle, -⟩, hrest⟩ := Span.inOrder_cons.1 hts
    exact (ih hrest).mono (hle.trans hne.le) le_rfl
  | item hb _ ih =>
    obtain ⟨hne, hin, -, hrest⟩ := (hP _ _ hb).inOrder hts
    exact Span.inOrder_cons.2 ⟨hne, hin, ih hrest⟩

section Phrases

variable {sep : Token α → Prop} {P : Tokens α → β → Prop} {bs : List β} {ready : Bool}

/-- A token of a listing is a separator or belongs to a phrase. -/
theorem Run.sep_or_phrase (h : Run sep P ready ts bs) {t : Located (Token α)} (ht : t ∈ ts) :
    sep t.value ∨ ∃ us, ∃ b ∈ bs, P us b ∧ us <:+: ts ∧ t ∈ us := by
  induction h with
  | nil ready => simp at ht
  | skip ready hsep _ ih =>
    rcases List.mem_cons.1 ht with rfl | ht
    · exact .inl hsep
    · rcases ih ht with hsep | ⟨us, b, hb, hus, hts, ht⟩
      · exact .inl hsep
      · exact .inr ⟨us, b, hb, hus, List.infix_cons hts, ht⟩
  | @item us ts b bs hus _ ih =>
    rcases List.mem_append.1 ht with ht | ht
    · exact .inr ⟨us, b, List.mem_cons_self, hus, (List.prefix_append us ts).isInfix, ht⟩
    · rcases ih ht with hsep | ⟨vs, b', hb', hvs, hts, ht⟩
      · exact .inl hsep
      · exact .inr ⟨vs, b', List.mem_cons_of_mem _ hb', hvs,
          hts.trans (List.suffix_append us ts).isInfix, ht⟩

end Phrases

end Grammar

/-! ### What declarations name and hold -/

section Items

variable {α : Type}

/-- The names that an item begins with, where they stand. -/
def Item.named : Item α → List (Located String)
  | .boxStyle name _ | .box name _ => [name]
  | .connect source target _ => [source, target]
  | .constrain _ | .comment _ => []

/-- The fields of an item, where they stand. -/
def Item.fields : Item α → List (Located (Field α))
  | .boxStyle _ fields | .box _ fields | .connect _ _ fields => fields
  | .constrain _ | .comment _ => []

namespace Grammar

open Parsing (Tokens)

variable [Scalar α] {us : Tokens α} {outer : Span}

theorem IsItem.name_mem {item : Item α} (h : IsItem us item) :
    ∀ n ∈ item.named, (⟨.name n.value, n.span⟩ : Located (Token α)) ∈ us := by
  cases h with
  | boxStyle | box | bareBox | connect => simp [Item.named]

/-- The names of a declaration are among its tokens. -/
theorem IsDeclaration.name_mem {d : Declaration α} (h : IsDeclaration us d) :
    ∀ n ∈ d.item.named, (⟨.name n.value, n.span⟩ : Located (Token α)) ∈ us := by
  cases h with
  | item h _ => exact fun n hn => List.mem_append_left _ (h.name_mem n hn)
  | constrain | comment => simp [Item.named]

theorem IsEntry.covers {f : Located (Field α)} (h : IsEntry us f) : Covers us f.span := by
  cases h with
  | comment text s => exact ⟨rfl, rfl⟩
  | field h => exact ⟨rfl, rfl⟩

theorem IsBlock.inOrder {fields : List (Located (Field α))} (h : IsBlock us fields)
    (hus : Span.InOrder outer (us.map (·.span))) : Span.InOrder outer (fields.map (·.span)) := by
  cases h with
  | @braces s e us fields h =>
    have hsub : (us.map (·.span)).Sublist
        ((⟨.braceOpen, s⟩ :: (us ++ [⟨.braceClose, e⟩]) : Tokens α).map (·.span)) :=
      ((List.sublist_append_left us _).cons _).map _
    exact (listing_iff_run.1 h).inOrder (fun us f hf => hf.covers) (hus.sublist hsub)

theorem IsItem.fields_inOrder {item : Item α} (h : IsItem us item)
    (hus : Span.InOrder outer (us.map (·.span))) :
    Span.InOrder outer (item.fields.map (·.span)) := by
  cases h with
  | boxStyle h | box h => exact h.inOrder (hus.sublist (((List.Sublist.refl _).cons _).cons _))
  | bareBox => exact .nil _
  | connect h => exact h.inOrder (hus.sublist ((((List.Sublist.refl _).cons _).cons _).cons _))

/-- **The fields of a declaration stand one behind the other**, within its tokens. -/
theorem IsDeclaration.fields_inOrder {d : Declaration α} (h : IsDeclaration us d)
    (hus : Span.InOrder outer (us.map (·.span))) :
    Span.InOrder outer (d.item.fields.map (·.span)) := by
  cases h with
  | item h _ => exact h.fields_inOrder (hus.sublist ((List.sublist_append_left _ _).map _))
  | constrain | comment => exact .nil _

end Grammar

end Items

/-! ### Documents in their places -/

section Documents

variable {α : Type} [Scalar α] [Numeral α] {source : String} {d : Document α}

/-- **The characters of a declaration** alone are read as this declaration. -/
theorem Grammar.IsLine.parse {us : Parsing.Tokens α} {l : Located (Declaration α)}
    {piece : List Char} (h : Grammar.IsLine us l) (hpiece : Tiles Heads l.span.start piece us) :
    parse (String.ofList piece) = .ok ⟨[Declaration.back l.span.start l]⟩ := by
  have hback := hpiece.back (le_refl l.span.start)
  rw [Nat.sub_self] at hback
  have hone : Run IsLineBreak IsLine true (us.map (·.back l.span.start) ++ [])
      [Declaration.back l.span.start l] := .item h.back (.nil false)
  rw [List.append_nil] at hone
  rw [← String.toList_ofList (l := piece)] at hback
  exact parse_eq_ok_iff_isDocument.2 ⟨_, lex_eq_ok_iff.2 hback, Grammar.listing_iff_run.2 hone⟩

/-- **What the spans of a document are.** Declarations stand one behind the other with nothing but
blanks and line breaks between them. What the span of a declaration cuts out is read as this
declaration alone. Its names and fields stand within it; a name is what its span cuts out. -/
theorem parse_places (h : parse source = .ok d) :
    Span.InOrder ⟨0, source.utf8ByteSize⟩ (d.declarations.map (·.span)) ∧
      (∀ i < source.utf8ByteSize, (∀ l ∈ d.declarations, ¬ l.span.Holds i) →
        ∃ c ∈ [' ', '\t', '\r', '\n'], Span.Cuts ⟨i, i + 1⟩ source (String.singleton c)) ∧
      ∀ l ∈ d.declarations,
        (∃ piece, l.span.Cuts source piece ∧
          parse piece = .ok ⟨[Declaration.back l.span.start l]⟩) ∧
        (∀ n ∈ l.value.item.named, n.span.Cuts source n.value ∧
          l.span.start ≤ n.span.start ∧ n.span.stop ≤ l.span.stop) ∧
        Span.InOrder l.span (l.value.item.fields.map (·.span)) := by
  obtain ⟨tokens, hlex, hdocument⟩ := parse_eq_ok_iff_isDocument.1 h
  have htiles := lex_eq_ok_iff.1 hlex
  have hrun := Grammar.listing_iff_run.1 hdocument
  have hsource := htiles.inOrder_source
  -- the tokens of a line lie within its span
  have hline : ∀ {us l}, Grammar.IsLine us l → us <:+: tokens →
      Span.InOrder l.span (us.map (·.span)) := by
    rintro us l ⟨-, hcovers⟩ hus
    have htokens := hsource.sublist (hus.sublist.map _)
    rw [← List.append_nil us] at htokens
    exact (hcovers.inOrder htokens).2.2.1
  refine ⟨hrun.inOrder (fun us l hl => hl.2) hsource, fun i hi hout => ?_, fun l hl => ?_⟩
  · by_cases htoken : ∃ t ∈ tokens, t.span.Holds i
    · -- a token outside of all declarations is a line break
      obtain ⟨t, ht, hholds⟩ := htoken
      rcases hrun.sep_or_phrase ht with hbreak | ⟨us, l, hl, hus, hpart, htus⟩
      · obtain ⟨w, rest, hcut, -, hw⟩ := htiles.exists_cut ht
        have hbyte : t.value.spelling? = some "\n" := by rw [hbreak]; rfl
        rw [hw.spelling hbyte] at hcut
        -- it has one byte only, so this is the byte
        have hstop := hcut.stop_eq
        have hsize : ("\n" : String).utf8ByteSize = 1 := rfl
        obtain ⟨hle, hlt⟩ := hholds
        have hspan : t.span = ⟨i, i + 1⟩ := by
          have hstart : t.span.start = i := by omega
          rw [← hstart, ← hsize, ← hstop]
        rw [hspan] at hcut
        exact ⟨'\n', by simp, hcut⟩
      · have hin := (hline hus hpart).within t.span (List.mem_map_of_mem htus)
        exact absurd ⟨hin.1.trans hholds.1, hholds.2.trans_le hin.2⟩ (hout l hl)
    · obtain ⟨c, hc, hcut⟩ := htiles.cuts_blank hi fun t ht hholds => htoken ⟨t, ht, hholds⟩
      exact ⟨c, List.mem_append_left ['\n'] hc, hcut⟩
  · obtain ⟨us, hus, hpart⟩ := hrun.exists_phrase hl
    have hin := hline hus hpart
    refine ⟨?_, fun n hn => ?_, hus.1.fields_inOrder hin⟩
    · obtain ⟨before, after, rfl⟩ := hpart
      obtain ⟨left, piece, right, htext, hleft, hstop, hpiece⟩ :=
        htiles.slice heads_cuttable hus.2.start hus.2.stop
      rw [Nat.zero_add] at hleft
      refine ⟨String.ofList piece, Span.cuts_iff.2 ⟨left, right, ?_, hleft, ?_⟩, hus.parse hpiece⟩
      · rw [String.toList_ofList, htext]
      · rw [String.toList_ofList, hstop]
    · have hmem := hus.1.name_mem n hn
      have hwithin := hin.within n.span (List.mem_map_of_mem hmem)
      obtain ⟨w, rest, hcut, -, hw⟩ := htiles.exists_cut (hpart.subset hmem)
      rw [hw.spelling rfl] at hcut
      exact ⟨hcut, hwithin⟩

/-- A source with a break before and between its declarations, a break within a block, a name with
characters of two bytes, and a comment that belongs to its line. -/
def scattered : String :=
  "\n box  größe \x7b\n  label: \"a\\\"b\" ; style: s\n\n\x7d\t// big\n\r\nconnect a b \x7b \x7d"

theorem scattered_places : ∃ d, parse (α := FixedPoint) scattered = .ok d ∧
    d.declarations.map (·.span) = [⟨2, 53⟩, ⟨56, 71⟩] ∧
    ∀ l ∈ d.declarations, ∃ piece, l.span.Cuts scattered piece ∧
      parse piece = .ok ⟨[Declaration.back l.span.start l]⟩ := by
  have hread : (parse (α := FixedPoint) scattered).toOption.map (fun d =>
      d.declarations.map (·.span)) = some [⟨2, 53⟩, ⟨56, 71⟩] := by decide +kernel
  obtain ⟨d, hd, hspans⟩ := Option.map_eq_some_iff.1 hread
  have hok := eq_ok_of_toOption hd
  obtain ⟨-, -, hplaces⟩ := parse_places hok
  exact ⟨d, hok, hspans, fun l hl => (hplaces l hl).1⟩

end Documents

end Schematic
