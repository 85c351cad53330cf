import Mathlib
import Schematic.Source.Parsing

/-!
# The grammar of documents

Which tokens make up a document, and which document that is. Nothing here reads from left to
right: a phrase is a list of tokens together with what it stands for, and phrases are put
together as the notation of the language says.

* `Listing`: phrases with separators before, between and after them.
* `Assigns`, `IsEntry`, `IsBlock`: the fields of a declaration.
* `IsPart`, `IsParts`: the parts of an equation.
* `IsDeclaration`, `IsDocument`: lines, and all of them.
* `Run`: a listing from left to right, one token or phrase after the other.
* `listing_iff_run`: both are the same.
-/

namespace Schematic

namespace Grammar

open Parsing (Tokens)

variable {α β : Type}

/-! ### Listings -/

section Listings

variable (sep : Token α → Prop) (P : Tokens α → β → Prop)

/-- One phrase or more, with at least one separator between any two. -/
inductive Separated : Tokens α → List β → Prop
  | one {us : Tokens α} {b : β} (h : P us b) : Separated us [b]
  | cons {us seps vs : Tokens α} {b : β} {bs : List β} (h : P us b) (hne : seps ≠ [])
    (hseps : ∀ t ∈ seps, sep t.value) (hrest : Separated vs bs) :
    Separated (us ++ (seps ++ vs)) (b :: bs)

/-- **A listing**: phrases with separators between them, and perhaps some before the first
and after the last one. -/
inductive Listing : Tokens α → List β → Prop
  | empty {seps : Tokens α} (hseps : ∀ t ∈ seps, sep t.value) : Listing seps []
  | items {lead us trail : Tokens α} {bs : List β} (hlead : ∀ t ∈ lead, sep t.value)
    (h : Separated sep P us bs) (htrail : ∀ t ∈ trail, sep t.value) :
    Listing (lead ++ (us ++ trail)) bs

end Listings

/-! ### Fields -/

section Fields

variable [Scalar α]

/-- What separates the entries of a block. -/
def IsBreak (t : Token α) : Prop := t = .semicolon ∨ t = .lineBreak

/-- A colour by its digits or by its name. -/
inductive IsColor : Token α → Color α → Prop
  | hex {text : String} {c : Color α} (h : Color.ofHex? text = some c) : IsColor (.hex text) c
  | name {text : String} {c : Color α} (h : Color.ofName? text = some c) : IsColor (.name text) c

/-- **A known key and a value of its kind.** -/
inductive Assigns : String → Token α → Field α → Prop
  | background {t : Token α} {c : Color α} (h : IsColor t c) :
    Assigns "background-color" t (.background c)
  | textColor {t : Token α} {c : Color α} (h : IsColor t c) : Assigns "text-color" t (.textColor c)
  | lineWidth (x : α) : Assigns "line-width" (.number x) (.lineWidth x)
  | label (text : String) : Assigns "label" (.quoted text) (.label text)
  | sourceHead (name : String) : Assigns "head1" (.name name) (.sourceHead name)
  | targetHead (name : String) : Assigns "head2" (.name name) (.targetHead name)
  | style (name : String) : Assigns "style" (.name name) (.style name)

/-- An entry of a block: a comment, or a key, a colon and a value. -/
inductive IsEntry : Tokens α → Located (Field α) → Prop
  | comment (text : String) (s : Span) : IsEntry [⟨.comment text, s⟩] ⟨.comment text, s⟩
  | field {key : String} {s c e : Span} {t : Token α} {f : Field α} (h : Assigns key t f) :
    IsEntry [⟨.name key, s⟩, ⟨.colon, c⟩, ⟨t, e⟩] ⟨f, ⟨s.start, e.stop⟩⟩

/-- A block: entries in braces. -/
inductive IsBlock : Tokens α → List (Located (Field α)) → Prop
  | braces {s e : Span} {us : Tokens α} {fields : List (Located (Field α))}
    (h : Listing IsBreak IsEntry us fields) :
    IsBlock (⟨.braceOpen, s⟩ :: (us ++ [⟨.braceClose, e⟩])) fields

end Fields

/-! ### Equations -/

/-- A token that is a part by itself. Equality has two spellings. -/
inductive StandsFor : Token α → Part α → Prop
  | number (x : α) : StandsFor (.number x) (.term (.constant x))
  | plus : StandsFor .plus (.term (.operation .add))
  | minus : StandsFor .minus (.term (.operation .subtract))
  | star : StandsFor .star (.term (.operation .multiply))
  | slash : StandsFor .slash (.term (.operation .divide))
  | less : StandsFor .less (.relation .less)
  | lessOrEqual : StandsFor .lessOrEqual (.relation .lessOrEqual)
  | equalEqual : StandsFor .equalEqual (.relation .equal)
  | equals : StandsFor .equals (.relation .equal)
  | greaterOrEqual : StandsFor .greaterOrEqual (.relation .greaterOrEqual)
  | greater : StandsFor .greater (.relation .greater)

/-- Names with a dot before each. -/
inductive IsTail : Tokens α → List String → Prop
  | nil : IsTail [] []
  | cons {us : Tokens α} {tail : List String} {d s : Span} (name : String) (h : IsTail us tail) :
    IsTail (⟨.dot, d⟩ :: ⟨.name name, s⟩ :: us) (name :: tail)

/-- A part of an equation. -/
inductive IsPart : Tokens α → Part α → Prop
  | token {t : Token α} {s : Span} {p : Part α} (h : StandsFor t p) : IsPart [⟨t, s⟩] p
  | reference {head : String} {s : Span} {us : Tokens α} {tail : List String} (h : IsTail us tail) :
    IsPart (⟨.name head, s⟩ :: us) (.term (.reference ⟨head, tail⟩))

/-- Parts of an equation, one after the other. -/
inductive IsParts : Tokens α → List (Part α) → Prop
  | nil : IsParts [] []
  | cons {us vs : Tokens α} {p : Part α} {ps : List (Part α)} (h : IsPart us p)
    (hrest : IsParts vs ps) : IsParts (us ++ vs) (p :: ps)

/-! ### Documents -/

/-- A comment, or nothing. -/
inductive IsTrailing : Tokens α → Option String → Prop
  | none : IsTrailing [] none
  | some (text : String) (s : Span) : IsTrailing [⟨.comment text, s⟩] (some text)

section Documents

variable [Scalar α]

/-- What is declared with names and fields. A box need not have a block. -/
inductive IsItem : Tokens α → Item α → Prop
  | boxStyle {k s : Span} {name : String} {us : Tokens α} {fields : List (Located (Field α))}
    (h : IsBlock us fields) :
    IsItem (⟨.boxStyle, k⟩ :: ⟨.name name, s⟩ :: us) (.boxStyle ⟨name, s⟩ fields)
  | bareBox {k s : Span} {name : String} :
    IsItem [⟨.box, k⟩, ⟨.name name, s⟩] (.box ⟨name, s⟩ [])
  | box {k s : Span} {name : String} {us : Tokens α} {fields : List (Located (Field α))}
    (h : IsBlock us fields) :
    IsItem (⟨.box, k⟩ :: ⟨.name name, s⟩ :: us) (.box ⟨name, s⟩ fields)
  | connect {k s s' : Span} {source target : String} {us : Tokens α}
    {fields : List (Located (Field α))} (h : IsBlock us fields) :
    IsItem (⟨.connect, k⟩ :: ⟨.name source, s⟩ :: ⟨.name target, s'⟩ :: us)
      (.connect ⟨source, s⟩ ⟨target, s'⟩ fields)

/-- A declaration. The comment of a constraint goes to its equation. -/
inductive IsDeclaration : Tokens α → Declaration α → Prop
  | item {us vs : Tokens α} {item : Item α} {trailing : Option String} (h : IsItem us item)
    (htrailing : IsTrailing vs trailing) : IsDeclaration (us ++ vs) ⟨item, trailing⟩
  | constrain {k : Span} {us vs : Tokens α} {ps : List (Part α)} {comment : Option String}
    {e : Equation α} (h : IsParts us ps) (hne : ps ≠ []) (hcomment : IsTrailing vs comment)
    (he : Equation.ofParts (ps ++ (comment.map Part.comment).toList) = .ok e) :
    IsDeclaration (⟨.constrain, k⟩ :: (us ++ vs)) ⟨.constrain e, none⟩
  | comment (text : String) (s : Span) :
    IsDeclaration [⟨.comment text, s⟩] ⟨.comment text, none⟩

/-- Where the last one of some tokens ends. -/
def EndsAt (ts : Tokens α) (stop : ℕ) : Prop := ts.getLast?.map (·.span.stop) = some stop

/-- A span from the start of the first token to the end of the last one. -/
structure Covers (ts : Tokens α) (s : Span) : Prop where
  start : ts.head?.map (·.span.start) = some s.start
  stop : EndsAt ts s.stop

/-- What separates declarations. -/
def IsLineBreak (t : Token α) : Prop := t = .lineBreak

/-- A declaration in its place. -/
def IsLine (ts : Tokens α) (l : Located (Declaration α)) : Prop :=
  IsDeclaration ts l.value ∧ Covers ts l.span

/-- **A document**: declarations with line breaks between them. -/
def IsDocument (ts : Tokens α) (d : Document α) : Prop :=
  Listing IsLineBreak IsLine ts d.declarations

/-- **A document of a source**: all of it are tokens, and they make up the document. -/
def Derives [Numeral α] (source : String) (d : Document α) : Prop :=
  ∃ tokens, lex source = .ok tokens ∧ IsDocument tokens d

end Documents

/-! ### From left to right -/

section Runs

variable (sep : Token α → Prop) (P : Tokens α → β → Prop)

/-- A listing as it is read. The flag says that a phrase may follow at once. -/
inductive Run : Bool → Tokens α → List β → Prop
  | nil (ready : Bool) : Run ready [] []
  | skip (ready : Bool) {t : Located (Token α)} {ts : Tokens α} {bs : List β} (ht : sep t.value)
    (h : Run true ts bs) : Run ready (t :: ts) bs
  | item {us ts : Tokens α} {b : β} {bs : List β} (hb : P us b) (h : Run false ts bs) :
    Run true (us ++ ts) (b :: bs)

variable {sep P} {seps us ts : Tokens α} {b : β} {bs : List β}

theorem Run.append_seps (hseps : ∀ t ∈ seps, sep t.value) (h : Run sep P true ts bs) :
    Run sep P true (seps ++ ts) bs := by
  induction seps with
  | nil => exact h
  | cons t seps ih =>
    obtain ⟨ht, hseps⟩ := List.forall_mem_cons.1 hseps
    exact .skip true ht (ih hseps)

/-- Between two phrases there is a separator, which makes the second one possible. -/
theorem Run.append_of_ne_nil (hne : seps ≠ []) (hseps : ∀ t ∈ seps, sep t.value)
    (h : Run sep P true ts bs) : Run sep P false (seps ++ ts) bs := by
  obtain ⟨t, seps, rfl⟩ := List.exists_cons_of_ne_nil hne
  obtain ⟨ht, hseps⟩ := List.forall_mem_cons.1 hseps
  exact .skip false ht (h.append_seps hseps)

theorem Run.of_seps (ready : Bool) (hseps : ∀ t ∈ seps, sep t.value) :
    Run sep P ready seps [] := by
  cases seps with
  | nil => exact .nil ready
  | cons t seps =>
    obtain ⟨ht, hseps⟩ := List.forall_mem_cons.1 hseps
    have hrest : Run sep P true (seps ++ []) [] := (Run.nil true).append_seps hseps
    rw [List.append_nil] at hrest
    exact .skip ready ht hrest

theorem Separated.run {trail : Tokens α} (h : Separated sep P us bs)
    (htrail : ∀ t ∈ trail, sep t.value) : Run sep P true (us ++ trail) bs := by
  induction h with
  | one hb => exact .item hb (.of_seps false htrail)
  | cons hb hne hseps _ ih =>
    rw [List.append_assoc, List.append_assoc]
    exact .item hb (ih.append_of_ne_nil hne hseps)

theorem Separated.listing {trail : Tokens α} (h : Separated sep P us bs)
    (htrail : ∀ t ∈ trail, sep t.value) : Listing sep P (us ++ trail) bs := by
  have hlead : ∀ t ∈ ([] : Tokens α), sep t.value := by simp
  have hlisting := Listing.items hlead h htrail
  exact hlisting

theorem Listing.skip {t : Located (Token α)} (ht : sep t.value) (h : Listing sep P ts bs) :
    Listing sep P (t :: ts) bs := by
  cases h with
  | empty hseps => exact .empty (List.forall_mem_cons.2 ⟨ht, hseps⟩)
  | items hlead h htrail =>
    rw [← List.cons_append]
    exact .items (List.forall_mem_cons.2 ⟨ht, hlead⟩) h htrail

/-- A phrase, a separator and a listing. -/
theorem Listing.item {t : Located (Token α)} (hb : P us b) (ht : sep t.value)
    (h : Listing sep P ts bs) : Listing sep P (us ++ (t :: ts)) (b :: bs) := by
  cases h with
  | empty hseps =>
    have hone : Separated sep P us [b] := .one hb
    exact hone.listing (List.forall_mem_cons.2 ⟨ht, hseps⟩)
  | items hlead h htrail =>
    have hseps : ∀ t' ∈ t :: _, sep t'.value := List.forall_mem_cons.2 ⟨ht, hlead⟩
    have hitems := Separated.cons hb (List.cons_ne_nil t _) hseps h
    simpa using hitems.listing htrail

/-- What a run takes: a listing where a phrase may follow at once, and elsewhere nothing, or
a separator and a listing. -/
theorem Run.listing {ready : Bool} (h : Run sep P ready ts bs) :
    if ready then Listing sep P ts bs
    else ts = [] ∧ bs = [] ∨ ∃ t us, ts = t :: us ∧ sep t.value ∧ Listing sep P us bs := by
  induction h with
  | nil ready =>
    cases ready with
    | true => exact .empty (by simp)
    | false => exact .inl ⟨rfl, rfl⟩
  | skip ready ht _ ih =>
    cases ready with
    | true => exact ih.skip ht
    | false => exact .inr ⟨_, _, rfl, ht, ih⟩
  | item hb _ ih =>
    obtain ⟨rfl, rfl⟩ | ⟨t, us, rfl, ht, h⟩ := ih
    · have hone : Separated sep P _ [_] := .one hb
      exact hone.listing (by simp)
    · exact .item hb ht h

/-- **A listing can be read from left to right.** -/
theorem listing_iff_run : Listing sep P ts bs ↔ Run sep P true ts bs := by
  constructor
  · intro h
    cases h with
    | empty hseps => exact .of_seps true hseps
    | items hlead h htrail => exact (h.run htrail).append_seps hlead
  · intro h
    exact h.listing

end Runs

end Grammar

end Schematic
