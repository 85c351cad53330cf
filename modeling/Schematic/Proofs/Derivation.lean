import Mathlib
import Schematic.Proofs.Grammar
import Schematic.Proofs.Rereading

/-!
# The parser and the grammar

The parser reads from left to right and never goes back. What it accepts, and what it makes of
it, are the documents of the grammar: every phrase that is read is one, and every phrase that
stands where it may stand is read as a whole.

* `Field.read_iff_assigns`: a key and a value.
* `Parsing.exists_isBlock`, `Grammar.IsBlock.block`: blocks.
* `Parsing.exists_isParts`, `Grammar.IsParts.readParts`: the parts of an equation.
* `Parsing.declaration_isLine`, `Grammar.IsLine.declaration`: declarations.
* `Parsing.declarations_eq_ok_iff`: all declarations of a source.
* `parse_eq_ok_iff_isDocument`, `parse_eq_ok_iff`: sources.
-/

namespace Schematic

variable {α : Type}

/-! ### Fields -/

section Fields

/-- The token that a raw value is read from. -/
def RawValue.token : RawValue α → Token α
  | hex text => .hex text
  | number x => .number x
  | quoted text => .quoted text
  | name text => .name text

theorem RawValue.ofToken?_eq_some_iff {t : Token α} {value : RawValue α} :
    ofToken? t = some value ↔ value.token = t := by
  constructor
  · intro h
    unfold ofToken? at h
    split at h
    all_goals first
      | obtain rfl := Option.some.inj h; rfl
      | simp at h
  · rintro rfl
    cases value <;> rfl

variable {key : String} {value : RawValue α}

theorem Field.readColor_eq_ok_iff [Scalar α] {c : Color α} :
    readColor key value = .ok c ↔ Grammar.IsColor value.token c := by
  constructor
  · intro h
    unfold readColor at h
    split at h
    · split at h
      · rename_i hc
        obtain rfl := Except.ok.inj h
        exact .hex hc
      · simp at h
    · split at h
      · rename_i hc
        obtain rfl := Except.ok.inj h
        exact .name hc
      · simp at h
    · simp at h
  · intro h
    cases value <;> cases h <;> simp_all [readColor]

theorem Field.readNumber_eq_ok_iff {x : α} :
    readNumber key value = .ok x ↔ value.token = .number x := by
  cases value <;> simp [readNumber, RawValue.token]

theorem Field.readText_eq_ok_iff {text : String} :
    readText key value = .ok text ↔ value.token = .quoted text := by
  cases value <;> simp [readText, RawValue.token]

theorem Field.readName_eq_ok_iff {name : String} :
    readName key value = .ok name ↔ value.token = .name name := by
  cases value <;> simp [readName, RawValue.token]

theorem FieldKey.text_of_ofText? {text : String} {key : FieldKey} (h : ofText? text = some key) :
    key.text = text := by
  unfold ofText? at h
  have htext := List.find?_some h
  exact eq_of_beq htext

theorem Grammar.IsColor.exists_token [Scalar α] {t : Token α} {c : Color α}
    (h : Grammar.IsColor t c) : ∃ value : RawValue α, value.token = t := by
  cases h with
  | @hex text _ _ => exact ⟨.hex text, rfl⟩
  | @name text _ _ => exact ⟨.name text, rfl⟩

/-- **A field is read** from a known key and a value of its kind. -/
theorem Field.read_iff_assigns [Scalar α] {t : Token α} {f : Field α} :
    (∃ value, RawValue.ofToken? t = some value ∧ read key value = .ok f) ↔
      Grammar.Assigns key t f := by
  constructor
  · rintro ⟨value, ht, h⟩
    obtain rfl := RawValue.ofToken?_eq_some_iff.1 ht
    unfold Field.read at h
    split at h
    · simp at h
    all_goals
      rename_i hkey
      obtain rfl := FieldKey.text_of_ofText? hkey
      obtain ⟨v, hv, rfl⟩ := except_map_eq_ok.1 h
    · exact .background (readColor_eq_ok_iff.1 hv)
    · exact .textColor (readColor_eq_ok_iff.1 hv)
    · exact readNumber_eq_ok_iff.1 hv ▸ .lineWidth v
    · exact readText_eq_ok_iff.1 hv ▸ .label v
    · exact readName_eq_ok_iff.1 hv ▸ .sourceHead v
    · exact readName_eq_ok_iff.1 hv ▸ .targetHead v
    · exact readName_eq_ok_iff.1 hv ▸ .style v
  · intro h
    cases h with
    | background hc =>
      obtain ⟨value, rfl⟩ := hc.exists_token
      have hcolor : readColor "background-color" value = .ok _ := readColor_eq_ok_iff.2 hc
      exact ⟨value, RawValue.ofToken?_eq_some_iff.2 rfl, except_map_eq_ok.2 ⟨_, hcolor, rfl⟩⟩
    | textColor hc =>
      obtain ⟨value, rfl⟩ := hc.exists_token
      have hcolor : readColor "text-color" value = .ok _ := readColor_eq_ok_iff.2 hc
      exact ⟨value, RawValue.ofToken?_eq_some_iff.2 rfl, except_map_eq_ok.2 ⟨_, hcolor, rfl⟩⟩
    | lineWidth x => exact ⟨.number x, rfl, rfl⟩
    | label text => exact ⟨.quoted text, rfl, rfl⟩
    | sourceHead name => exact ⟨.name name, rfl, rfl⟩
    | targetHead name => exact ⟨.name name, rfl, rfl⟩
    | style name => exact ⟨.name name, rfl, rfl⟩

end Fields

/-! ### Places -/

namespace Grammar

open Parsing (Tokens)

variable {us vs : Tokens α} {n : ℕ}

theorem endsAt_concat (us : Tokens α) (t : Located (Token α)) : EndsAt (us ++ [t]) t.span.stop := by
  rw [EndsAt, List.getLast?_concat]
  rfl

theorem EndsAt.append_left (us : Tokens α) (h : EndsAt vs n) : EndsAt (us ++ vs) n := by
  obtain ⟨t, ht, hstop⟩ := Option.map_eq_some_iff.1 h
  rw [EndsAt, List.getLast?_append, ht, ← hstop]
  rfl

theorem EndsAt.covers {t : Located (Token α)} (h : EndsAt (t :: us) n) :
    Covers (t :: us) ⟨t.span.start, n⟩ := ⟨rfl, h⟩

theorem Covers.concat {s : Span} (h : Covers us s) (t : Located (Token α)) :
    Covers (us ++ [t]) ⟨s.start, t.span.stop⟩ := by
  refine ⟨?_, endsAt_concat us t⟩
  obtain ⟨t', ht', hstart⟩ := Option.map_eq_some_iff.1 h.start
  rw [List.head?_append, ht']
  exact congrArg some hstart

theorem Covers.unique {s s' : Span} (h : Covers us s) (h' : Covers us s') : s = s' := by
  obtain ⟨start, stop⟩ := s
  obtain ⟨start', stop'⟩ := s'
  obtain rfl := Option.some.inj (h.start.symm.trans h'.start)
  obtain rfl := Option.some.inj (h.stop.symm.trans h'.stop)
  rfl

theorem endsAt_stopBefore {rest : Tokens α} (hne : us ≠ []) :
    EndsAt us (Parsing.stopBefore (us ++ rest) rest) := by
  have htake : (us ++ rest).take ((us ++ rest).length - rest.length) = us := by
    rw [List.length_append, Nat.add_sub_cancel, List.take_left]
  rw [Parsing.stopBefore, htake, EndsAt, List.getLast?_eq_some_getLast hne]
  rfl

end Grammar

/-! ### Blocks -/

section Blocks

variable {stop : ℕ} {ts us : Parsing.Tokens α}
  {fields : List (Located (Field α))}

namespace Parsing

open Grammar

theorem exists_name {p : Parsed α (Located String)} (h : name stop ts = .ok p) :
    ∃ text s, ts = ⟨.name text, s⟩ :: p.rest ∧ p.value = ⟨text, s⟩ ∧ p.stop = s.stop := by
  unfold name at h
  split at h
  · obtain rfl := Except.ok.inj h
    exact ⟨_, _, rfl, rfl, rfl⟩
  · simp at h

variable [Scalar α]

/-- Entries that are read are a listing up to the brace. -/
theorem entries_run {ready : Bool} {p : Parsed α (List (Located (Field α)))}
    (h : entries stop ready ts = .ok p) :
    ∃ us e, Run IsBreak IsEntry ready us p.value ∧ ts = us ++ ⟨.braceClose, e⟩ :: p.rest ∧
      p.stop = e.stop := by
  fun_induction entries stop ready ts generalizing p with
  | case1 ready s rest ih =>
    obtain ⟨us, e, hrun, rfl, hstop⟩ := ih h
    exact ⟨⟨.semicolon, s⟩ :: us, e, .skip ready (.inl rfl) hrun, rfl, hstop⟩
  | case2 ready s rest ih =>
    obtain ⟨us, e, hrun, rfl, hstop⟩ := ih h
    exact ⟨⟨.lineBreak, s⟩ :: us, e, .skip ready (.inr rfl) hrun, rfl, hstop⟩
  | case3 ready s rest =>
    obtain rfl := Except.ok.inj h
    exact ⟨[], s, .nil ready, rfl, rfl⟩
  | case4 text s rest ih =>
    obtain ⟨after, hafter, h⟩ := except_bind_eq_ok.1 h
    obtain rfl := Except.ok.inj h
    obtain ⟨us, e, hrun, rfl, hstop⟩ := ih hafter
    exact ⟨_, e, .item (.comment text s) hrun, rfl, hstop⟩
  | case7 key s c token e rest value hvalue field hfield ih =>
    obtain ⟨after, hafter, h⟩ := except_bind_eq_ok.1 h
    obtain rfl := Except.ok.inj h
    obtain ⟨us, e', hrun, rfl, hstop⟩ := ih hafter
    have hassigns := Field.read_iff_assigns.1 ⟨value, hvalue, hfield⟩
    exact ⟨_, e', .item (.field hassigns) hrun, rfl, hstop⟩
  | case5 | case6 | case8 | case9 | case10 => simp at h

end Parsing

namespace Grammar

variable [Scalar α]

/-- A listing of entries is read up to the brace after it. -/
theorem Run.entries {ready : Bool} (h : Run IsBreak IsEntry ready us fields) (stop : ℕ) (e : Span)
    (rest : Parsing.Tokens α) :
    Parsing.entries stop ready (us ++ ⟨.braceClose, e⟩ :: rest) = .ok ⟨fields, e.stop, rest⟩ := by
  induction h with
  | nil ready => rw [List.nil_append, Parsing.entries]
  | @skip ready t ts bs ht hrun ih =>
    obtain ⟨t, s⟩ := t
    obtain rfl | rfl : t = .semicolon ∨ t = .lineBreak := ht
    · rw [List.cons_append, Parsing.entries, ih]
    · rw [List.cons_append, Parsing.entries, ih]
  | item hentry hrun ih =>
    cases hentry with
    | comment text s => exact Parsing.entries_comment ih
    | field hassigns =>
      obtain ⟨value, hvalue, hread⟩ := Field.read_iff_assigns.2 hassigns
      exact Parsing.entries_field hvalue hread ih

end Grammar

namespace Parsing

open Grammar

variable [Scalar α]

/-- **A block is read** up to the brace that closes it. -/
theorem exists_isBlock {p : Parsed α (List (Located (Field α)))} (h : block stop ts = .ok p) :
    ∃ us, IsBlock us p.value ∧ EndsAt us p.stop ∧ ts = us ++ p.rest := by
  unfold block at h
  split at h
  · rename_i s rest
    obtain ⟨us, e, hrun, rfl, hstop⟩ := entries_run h
    refine ⟨⟨.braceOpen, s⟩ :: (us ++ [⟨.braceClose, e⟩]), .braces (listing_iff_run.2 hrun), ?_, ?_⟩
    · rw [hstop]
      exact endsAt_concat (⟨.braceOpen, s⟩ :: us) ⟨.braceClose, e⟩
    · rw [List.cons_append, List.append_assoc]
      rfl
  · simp at h

end Parsing

/-- A block is read where it stands. -/
theorem Grammar.IsBlock.block [Scalar α] (h : IsBlock us fields) (stop : ℕ)
    (rest : Parsing.Tokens α) :
    ∃ n, EndsAt us n ∧ Parsing.block stop (us ++ rest) = .ok ⟨fields, n, rest⟩ := by
  cases h with
  | @braces s e vs _ hlisting =>
    refine ⟨e.stop, endsAt_concat (⟨.braceOpen, s⟩ :: vs) ⟨.braceClose, e⟩, ?_⟩
    rw [List.cons_append, List.append_assoc]
    exact (listing_iff_run.1 hlisting).entries stop e rest

end Blocks

/-! ### Equations -/

section Equations

variable {ts us vs rest : Parsing.Tokens α}

/-- A part that is a single token is read from it. -/
theorem Part.ofToken?_eq_some_iff {t : Token α} {p : Part α} :
    ofToken? t = some p ↔ Grammar.StandsFor t p := by
  constructor
  · intro h
    cases t <;> simp only [ofToken?, reduceCtorEq, Option.some.injEq] at h <;> subst h <;>
      constructor
  · intro h
    cases h <;> rfl

namespace Parsing

open Grammar

/-- The names that are read after a name are those of dots. -/
theorem exists_isTail (ts : Tokens α) :
    ∃ us, IsTail us (readTail ts).1 ∧ ts = us ++ (readTail ts).2 := by
  fun_induction readTail ts with
  | case1 d name s rest tail after heq ih =>
    obtain ⟨us, htail, hts⟩ := heq ▸ ih
    exact ⟨_, .cons name htail, congrArg (fun us => ⟨.dot, d⟩ :: ⟨.name name, s⟩ :: us) hts⟩
  | case2 ts => exact ⟨[], .nil, rfl⟩

/-- The parts that are read are parts. -/
theorem exists_isParts (ts : Tokens α) :
    ∃ us, IsParts us (readParts ts).1 ∧ ts = us ++ (readParts ts).2 := by
  fun_induction readParts ts with
  | case1 => exact ⟨[], .nil, rfl⟩
  | case2 t rest head ht parts after heq ih =>
    obtain ⟨us, htail, hrest⟩ := exists_isTail rest
    obtain ⟨vs, hparts, hafter⟩ := heq ▸ ih
    obtain ⟨t, s⟩ := t
    obtain rfl : t = .name head := ht
    refine ⟨_, .cons (.reference (s := s) htail) hparts, ?_⟩
    have hsplit : rest = us ++ vs ++ after := by
      rw [List.append_assoc]
      exact hrest.trans (congrArg (us ++ ·) hafter)
    exact congrArg (_ :: ·) hsplit
  | case3 t rest part hpart parts after heq hname ih =>
    obtain ⟨vs, hparts, hafter⟩ := heq ▸ ih
    obtain ⟨t, s⟩ := t
    refine ⟨_, .cons (.token (s := s) (Part.ofToken?_eq_some_iff.1 hpart)) hparts, ?_⟩
    exact congrArg (_ :: ·) hafter
  | case4 t rest => exact ⟨[], .nil, rfl⟩

theorem exists_isTrailing (ts : Tokens α) :
    ∃ vs, IsTrailing vs (takeComment ts).1 ∧ ts = vs ++ (takeComment ts).2 := by
  unfold takeComment
  split
  · exact ⟨_, .some _ _, rfl⟩
  · exact ⟨[], .none, rfl⟩

theorem exists_skipLineBreaks (ts : Tokens α) :
    ∃ lead, (∀ t ∈ lead, IsLineBreak t.value) ∧ ts = lead ++ skipLineBreaks ts := by
  fun_induction skipLineBreaks ts with
  | case1 s rest ih =>
    obtain ⟨lead, hlead, hrest⟩ := ih
    exact ⟨⟨.lineBreak, s⟩ :: lead, List.forall_mem_cons.2 ⟨rfl, hlead⟩, congrArg (_ :: ·) hrest⟩
  | case2 ts => exact ⟨[], by simp, rfl⟩

end Parsing

namespace Grammar

/-- What stands after a whole declaration: nothing, or a line break. -/
def AtLineEnd (rest : Parsing.Tokens α) : Prop := ∀ t ∈ rest.head?, IsLineBreak t.value

/-- What stands after the parts of an equation: nothing, a line break or a comment. -/
def AfterParts (rest : Parsing.Tokens α) : Prop := ∀ t ∈ rest.head?, Parsing.EndsParts t.value

theorem IsTrailing.afterParts {comment : Option String} (h : IsTrailing vs comment)
    (hrest : AtLineEnd rest) : AfterParts (vs ++ rest) := by
  cases h with
  | none => exact fun t ht => .inl (hrest t ht)
  | some text s =>
    rintro t ht
    obtain rfl : ⟨.comment text, s⟩ = t := Option.some.inj ht
    exact .inr ⟨text, rfl⟩

theorem IsTrailing.head?_ne_brace {comment : Option String} (h : IsTrailing vs comment)
    (hrest : AtLineEnd rest) : ∀ t ∈ (vs ++ rest).head?, t.value ≠ .braceOpen := by
  intro t ht hbrace
  rcases h.afterParts hrest t ht with hend | ⟨text, hend⟩
  · simp [hbrace] at hend
  · simp [hbrace] at hend

theorem IsTrailing.takeComment {comment : Option String} (h : IsTrailing vs comment)
    (hrest : AtLineEnd rest) : Parsing.takeComment (vs ++ rest) = (comment, rest) := by
  cases h with
  | none =>
    rw [List.nil_append]
    unfold Parsing.takeComment
    split
    · rename_i text s after
      have hbreak : IsLineBreak (.comment text) := hrest ⟨.comment text, s⟩ rfl
      simp [IsLineBreak] at hbreak
    · rfl
  | some text s => rfl

theorem withTrailing_of_atLineEnd {start n : ℕ} {item : Item α} {follow : List (Option (Token α))}
    (hrest : AtLineEnd rest) :
    Parsing.withTrailing start ⟨item, n, rest⟩ follow = ⟨⟨⟨item, none⟩, ⟨start, n⟩⟩, rest, follow⟩ := by
  unfold Parsing.withTrailing
  split
  · rename_i text s after heq
    obtain rfl : rest = ⟨.comment text, s⟩ :: after := heq
    have hbreak : IsLineBreak (.comment text) := hrest ⟨.comment text, s⟩ rfl
    simp [IsLineBreak] at hbreak
  · rfl

/-- Parts do not go on with a dot. -/
theorem IsParts.head?_ne_dot {ps : List (Part α)} (h : IsParts us ps) (hrest : AfterParts rest) :
    ∀ t ∈ (us ++ rest).head?, t.value ≠ .dot := by
  intro t ht hdot
  cases h with
  | nil =>
    rcases hrest t ht with hend | ⟨text, hend⟩
    · simp [hdot] at hend
    · simp [hdot] at hend
  | cons hp _ =>
    cases hp with
    | token hstands =>
      obtain rfl := Option.some.inj ht
      obtain rfl := hdot
      cases hstands
    | reference _ =>
      obtain rfl := Option.some.inj ht
      simp at hdot

theorem IsParts.ne_nil {ps : List (Part α)} (h : IsParts us ps) (hne : ps ≠ []) : us ≠ [] := by
  cases h with
  | nil => exact absurd rfl hne
  | cons hp _ => cases hp <;> simp

theorem IsTail.readTail {tail : List String} (h : IsTail us tail)
    (hdot : ∀ t ∈ rest.head?, t.value ≠ .dot) : Schematic.readTail (us ++ rest) = (tail, rest) := by
  induction h with
  | nil =>
    rw [List.nil_append]
    unfold Schematic.readTail
    split
    · exact absurd rfl (hdot _ rfl)
    · rfl
  | cons name _ ih =>
    rw [List.cons_append, List.cons_append, Schematic.readTail, ih]

/-- **Parts are read** up to the comment or the end of the line. -/
theorem IsParts.readParts {ps : List (Part α)} (h : IsParts us ps) (hrest : AfterParts rest) :
    Schematic.readParts (us ++ rest) = (ps, rest) := by
  induction h with
  | nil =>
    cases rest with
    | nil => rw [List.append_nil, Schematic.readParts]
    | cons t rest => exact Parsing.readParts_end (hrest t rfl)
  | cons hp hps ih =>
    rw [List.append_assoc]
    cases hp with
    | token hstands =>
      rw [List.singleton_append, Parsing.readParts_cons (Part.ofToken?_eq_some_iff.2 hstands), ih]
    | reference htail =>
      rw [List.cons_append, Parsing.readParts_name, htail.readTail (hps.head?_ne_dot hrest), ih]

end Grammar

end Equations

/-! ### Declarations -/

section Declarations

variable [Scalar α] {stop : ℕ} {ts us vs rest : Parsing.Tokens α}

namespace Parsing

open Grammar

/-- An item takes the comment on its line. -/
theorem withTrailing_isLine {start : ℕ} (item : Parsed α (Item α))
    {follow : List (Option (Token α))} (hitem : IsItem us item.value)
    (hspan : Covers us ⟨start, item.stop⟩) :
    ∃ vs, IsLine vs (withTrailing start item follow).declaration ∧
      us ++ item.rest = vs ++ (withTrailing start item follow).rest := by
  unfold withTrailing
  split
  · rename_i text s rest heq
    have hcomment := hspan.concat ⟨.comment text, s⟩
    refine ⟨us ++ [⟨.comment text, s⟩], ⟨.item hitem (.some text s), hcomment⟩, ?_⟩
    rw [heq, List.append_assoc]
    rfl
  · have hdeclaration : IsDeclaration us ⟨item.value, none⟩ := by
      have hnone := IsDeclaration.item hitem .none
      rwa [List.append_nil] at hnone
    exact ⟨us, ⟨hdeclaration, hspan⟩, rfl⟩

theorem constraint_isLine {k : Span} {line : Line α} (h : constraint k.start stop ts = .ok line) :
    ∃ us, IsLine us line.declaration ∧ ⟨.constrain, k⟩ :: ts = us ++ line.rest := by
  obtain ⟨us, hparts, hts⟩ := exists_isParts ts
  obtain ⟨vs, hcomment, hrest⟩ := exists_isTrailing (readParts ts).2
  obtain ⟨e, hdeclaration, hleft, hne, he⟩ := constraint_eq_ok h
  have hsplit : ts = us ++ vs ++ line.rest := by
    rw [hleft, List.append_assoc, ← hrest]
    exact hts
  have hstop : EndsAt (us ++ vs) (stopBefore ts line.rest) := by
    have hus : us ++ vs ≠ [] := List.append_ne_nil_of_left_ne_nil (hparts.ne_nil hne) vs
    rw [hsplit]
    exact endsAt_stopBefore hus
  refine ⟨⟨.constrain, k⟩ :: (us ++ vs), ?_, congrArg (_ :: ·) hsplit⟩
  rw [hdeclaration, ← hleft]
  exact ⟨.constrain hparts hne hcomment he, (hstop.append_left [⟨.constrain, k⟩]).covers⟩

/-- **A declaration that is read** is one, and it takes the tokens up to what is left. -/
theorem declaration_isLine {line : Line α} (h : declaration stop ts = .ok line) :
    ∃ us, IsLine us line.declaration ∧ ts = us ++ line.rest := by
  unfold declaration at h
  split at h
  · rename_i k rest
    obtain ⟨n, hn, hrest⟩ := except_bind_eq_ok.1 h
    obtain ⟨b, hb, hrest⟩ := except_bind_eq_ok.1 hrest
    obtain rfl := Except.ok.inj hrest
    obtain ⟨text, s, rfl, hname, -⟩ := exists_name hn
    obtain ⟨us, hblock, hend, hafter⟩ := exists_isBlock hb
    have hitem : IsItem (⟨.boxStyle, k⟩ :: ⟨.name text, s⟩ :: us) (.boxStyle n.value b.value) := by
      rw [hname]
      exact .boxStyle hblock
    have hspan := (hend.append_left [⟨.boxStyle, k⟩, ⟨.name text, s⟩]).covers
    rw [hafter]
    exact withTrailing_isLine ⟨.boxStyle n.value b.value, b.stop, b.rest⟩ hitem hspan
  · rename_i k rest
    obtain ⟨n, hn, hrest⟩ := except_bind_eq_ok.1 h
    obtain ⟨text, s, rfl, hname, hstop⟩ := exists_name hn
    split at hrest
    · obtain ⟨b, hb, hrest⟩ := except_bind_eq_ok.1 hrest
      obtain rfl := Except.ok.inj hrest
      obtain ⟨us, hblock, hend, hafter⟩ := exists_isBlock hb
      have hitem : IsItem (⟨.box, k⟩ :: ⟨.name text, s⟩ :: us) (.box n.value b.value) := by
        rw [hname]
        exact .box hblock
      have hspan := (hend.append_left [⟨.box, k⟩, ⟨.name text, s⟩]).covers
      rw [hafter]
      exact withTrailing_isLine ⟨.box n.value b.value, b.stop, b.rest⟩ hitem hspan
    · obtain rfl := Except.ok.inj hrest
      have hitem : IsItem (α := α) [⟨.box, k⟩, ⟨.name text, s⟩] (.box n.value []) := by
        rw [hname]
        exact .bareBox
      have hspan : Covers (α := α) [⟨.box, k⟩, ⟨.name text, s⟩] ⟨k.start, n.stop⟩ := by
        rw [hstop]
        exact ⟨rfl, rfl⟩
      exact withTrailing_isLine ⟨.box n.value [], n.stop, n.rest⟩ hitem hspan
  · rename_i k rest
    obtain ⟨n, hn, hrest⟩ := except_bind_eq_ok.1 h
    obtain ⟨m, hm, hrest⟩ := except_bind_eq_ok.1 hrest
    obtain ⟨b, hb, hrest⟩ := except_bind_eq_ok.1 hrest
    obtain rfl := Except.ok.inj hrest
    obtain ⟨source, s, rfl, hsource, -⟩ := exists_name hn
    obtain ⟨target, s', hsecond, htarget, -⟩ := exists_name hm
    obtain ⟨us, hblock, hend, hafter⟩ := exists_isBlock hb
    have hitem : IsItem (⟨.connect, k⟩ :: ⟨.name source, s⟩ :: ⟨.name target, s'⟩ :: us)
        (.connect n.value m.value b.value) := by
      rw [hsource, htarget]
      exact .connect hblock
    have hspan := (hend.append_left [⟨.connect, k⟩, ⟨.name source, s⟩, ⟨.name target, s'⟩]).covers
    rw [hsecond, hafter]
    exact withTrailing_isLine ⟨.connect n.value m.value b.value, b.stop, b.rest⟩ hitem hspan
  · exact constraint_isLine h
  · rename_i text s rest
    obtain rfl := Except.ok.inj h
    exact ⟨[⟨.comment text, s⟩], ⟨.comment text s, ⟨rfl, rfl⟩⟩, rfl⟩
  · simp at h

end Parsing

namespace Grammar

open Parsing (withTrailing)

/-- An item is read where no brace follows it. -/
theorem IsItem.declaration {item : Item α} (h : IsItem us item) (stop : ℕ)
    (hbrace : ∀ t ∈ rest.head?, t.value ≠ .braceOpen) :
    ∃ s follow, Covers us s ∧ Parsing.declaration stop (us ++ rest) =
      .ok (withTrailing s.start ⟨item, s.stop, rest⟩ follow) := by
  cases h with
  | @boxStyle k s name us fields hblock =>
    obtain ⟨n, hend, hread⟩ := hblock.block stop rest
    have hspan := (hend.append_left [⟨.boxStyle, k⟩, ⟨.name name, s⟩]).covers
    refine ⟨_, Parsing.afterDeclaration, hspan, ?_⟩
    simp only [List.cons_append, Parsing.declaration, Parsing.name, hread, bind, Except.bind]
    rfl
  | @bareBox k s name =>
    refine ⟨⟨k.start, s.stop⟩, some .braceOpen :: Parsing.afterDeclaration, ⟨rfl, rfl⟩, ?_⟩
    simp only [List.cons_append, List.nil_append, Parsing.declaration, Parsing.name, bind,
      Except.bind]
    split
    · exact absurd rfl (hbrace _ rfl)
    · rfl
  | @box k s name us fields hblock =>
    obtain ⟨n, hend, hread⟩ := hblock.block stop rest
    have hspan := (hend.append_left [⟨.box, k⟩, ⟨.name name, s⟩]).covers
    refine ⟨_, Parsing.afterDeclaration, hspan, ?_⟩
    -- the block begins with the brace that tells the two kinds of boxes apart
    cases hblock
    simp only [List.cons_append] at hread
    simp only [List.cons_append, Parsing.declaration, Parsing.name, hread, bind, Except.bind]
    rfl
  | @connect k s s' source target us fields hblock =>
    obtain ⟨n, hend, hread⟩ := hblock.block stop rest
    have hspan := (hend.append_left [⟨.connect, k⟩, ⟨.name source, s⟩, ⟨.name target, s'⟩]).covers
    refine ⟨_, Parsing.afterDeclaration, hspan, ?_⟩
    simp only [List.cons_append, Parsing.declaration, Parsing.name, hread, bind, Except.bind]
    rfl

/-- **A declaration is read** up to the end of its line. -/
theorem IsLine.declaration {l : Located (Declaration α)} (h : IsLine us l) (stop : ℕ)
    (hrest : AtLineEnd rest) :
    ∃ line, Parsing.declaration stop (us ++ rest) = .ok line ∧ line.declaration = l ∧
      line.rest = rest := by
  obtain ⟨value, span⟩ := l
  obtain ⟨hdeclaration, hspan⟩ := h
  cases hdeclaration with
  | item hitem htrailing =>
    obtain ⟨s, follow, hcovers, hread⟩ := hitem.declaration stop (htrailing.head?_ne_brace hrest)
    rw [List.append_assoc]
    refine ⟨_, hread, ?_⟩
    cases htrailing with
    | none =>
      rw [List.append_nil] at hspan
      rw [List.nil_append, withTrailing_of_atLineEnd hrest]
      exact ⟨congrArg _ (hcovers.unique hspan), rfl⟩
    | some text s' =>
      have hcomment := hcovers.concat ⟨.comment text, s'⟩
      exact ⟨congrArg _ (hcomment.unique hspan), rfl⟩
  | @constrain k us vs ps comment e hparts hne hcomment he =>
    have hread : readParts (us ++ (vs ++ rest)) = (ps, vs ++ rest) :=
      hparts.readParts (hcomment.afterParts hrest)
    have hstop : EndsAt (us ++ vs) (Parsing.stopBefore (us ++ (vs ++ rest)) rest) := by
      have hus : us ++ vs ≠ [] := List.append_ne_nil_of_left_ne_nil (hparts.ne_nil hne) vs
      rw [← List.append_assoc]
      exact endsAt_stopBefore hus
    have hempty : ps.isEmpty = false := List.isEmpty_eq_false_iff.2 hne
    obtain rfl := hspan.unique (hstop.append_left [⟨.constrain, k⟩]).covers
    rw [List.cons_append, List.append_assoc]
    simp only [Parsing.declaration, Parsing.constraint, hread, hempty, hcomment.takeComment hrest, he]
    -- no dot follows, so there is no name to be missed
    cases rest with
    | nil => exact ⟨_, rfl, rfl, rfl⟩
    | cons t rest =>
      obtain ⟨t, s⟩ := t
      obtain rfl : t = .lineBreak := hrest ⟨t, s⟩ rfl
      exact ⟨_, rfl, rfl, rfl⟩
  | comment text s =>
    obtain rfl := hspan.unique ⟨rfl, rfl⟩
    exact ⟨_, rfl, rfl, rfl⟩

theorem IsLine.exists_cons {l : Located (Declaration α)} (h : IsLine us l) :
    ∃ t vs, us = t :: vs ∧ t.value ≠ .lineBreak := by
  obtain ⟨value, span⟩ := l
  obtain ⟨hdeclaration, -⟩ := h
  cases hdeclaration with
  | item hitem _ => cases hitem <;> exact ⟨_, _, rfl, by simp⟩
  | constrain => exact ⟨_, _, rfl, by simp⟩
  | comment => exact ⟨_, _, rfl, by simp⟩

end Grammar

end Declarations

/-! ### Sources -/

section Sources

variable [Scalar α] {stop : ℕ} {ts us vs rest : Parsing.Tokens α}
  {ds : List (Located (Declaration α))}

namespace Parsing

open Grammar

/-- Declarations that are read are a listing. -/
theorem declarations_run (h : declarations stop ts = .ok ds) : Run IsLineBreak IsLine true ts ds := by
  fun_induction declarations stop ts generalizing ds with
  | case1 ts start =>
    rename_i hempty
    obtain rfl := Except.ok.inj h
    obtain ⟨lead, hlead, hts⟩ := exists_skipLineBreaks ts
    have hnil : skipLineBreaks ts = [] := List.isEmpty_iff.1 hempty
    rw [hts, hnil, List.append_nil]
    exact .of_seps true hlead
  | case2 => simp at h
  | case3 ts start hne line hline =>
    rename_i hrest
    obtain rfl := Except.ok.inj h
    obtain ⟨lead, hlead, hts⟩ := exists_skipLineBreaks ts
    obtain ⟨us, hisLine, hstart⟩ : ∃ us, IsLine us line.declaration ∧
        skipLineBreaks ts = us ++ line.rest := declaration_isLine hline
    rw [hts, hstart, hrest]
    exact Run.append_seps hlead (.item hisLine (.nil false))
  | case4 ts start hne line hline s rest hrest =>
    rename_i ih
    obtain ⟨ds, hds, rfl⟩ := except_map_eq_ok.1 h
    obtain ⟨lead, hlead, hts⟩ := exists_skipLineBreaks ts
    obtain ⟨us, hisLine, hstart⟩ : ∃ us, IsLine us line.declaration ∧
        skipLineBreaks ts = us ++ line.rest := declaration_isLine hline
    have hrun : Run IsLineBreak IsLine false (⟨.lineBreak, s⟩ :: rest) ds := .skip false rfl (ih hds)
    rw [hts, hstart, hrest]
    exact Run.append_seps hlead (.item hisLine hrun)
  | case5 => simp at h

theorem declarations_lineBreak (s : Span) :
    declarations stop (⟨.lineBreak, s⟩ :: ts) = declarations stop ts := by
  conv_rhs => rw [declarations]
  rw [declarations]
  rfl

end Parsing

namespace Grammar

/-- A listing of declarations is read. After a declaration, it has to go on with a line
break. -/
theorem Run.declarations {ready : Bool} (h : Run IsLineBreak IsLine ready ts ds) (stop : ℕ) :
    if ready then Parsing.declarations stop ts = .ok ds
    else ts = [] ∧ ds = [] ∨
      ∃ s us, ts = ⟨.lineBreak, s⟩ :: us ∧ Parsing.declarations stop us = .ok ds := by
  induction h with
  | nil ready =>
    cases ready with
    | true =>
      rw [if_pos rfl, Parsing.declarations]
      rfl
    | false => exact .inl ⟨rfl, rfl⟩
  | @skip ready t ts ds ht _ ih =>
    obtain ⟨t, s⟩ := t
    obtain rfl : t = .lineBreak := ht
    cases ready with
    | true => exact (Parsing.declarations_lineBreak s).trans ih
    | false => exact .inr ⟨s, ts, rfl, ih⟩
  | @item us ts l ds hl _ ih =>
    obtain ⟨t, vs, rfl, ht⟩ := hl.exists_cons
    obtain ⟨rfl, rfl⟩ | ⟨s, rest, rfl, hds⟩ := ih
    · have hend : AtLineEnd ([] : Parsing.Tokens α) := by simp [AtLineEnd]
      obtain ⟨line, hline, rfl, hrest⟩ := hl.declaration stop hend
      have hread := Parsing.declarations_of_declaration stop ht hline
      rw [hrest] at hread
      exact hread
    · have hend : AtLineEnd (⟨.lineBreak, s⟩ :: rest) := by simp [AtLineEnd, IsLineBreak]
      obtain ⟨line, hline, rfl, hrest⟩ := hl.declaration stop hend
      exact Parsing.declarations_cons stop ht hline hrest hds

end Grammar

/-- **The declarations of a source** are read if and only if they are a listing. -/
theorem Parsing.declarations_eq_ok_iff (stop : ℕ) : declarations stop ts = .ok ds ↔
    Grammar.Listing Grammar.IsLineBreak Grammar.IsLine ts ds := by
  rw [Grammar.listing_iff_run]
  constructor
  · intro h
    exact declarations_run h
  · intro h
    exact h.declarations stop

variable [Numeral α]

/-- **What reading a source comes to**: its tokens make up a document. -/
theorem parse_eq_ok_iff_isDocument {source : String} {d : Document α} : parse source = .ok d ↔
    ∃ tokens, lex source = .ok tokens ∧ Grammar.IsDocument tokens d := by
  obtain ⟨ds⟩ := d
  unfold parse Grammar.IsDocument
  cases lex (α := α) source with
  | error strays => simp
  | ok tokens =>
    simp only [Except.ok.injEq, exists_eq_left']
    rw [← Parsing.declarations_eq_ok_iff source.utf8ByteSize]
    cases Parsing.declarations source.utf8ByteSize tokens <;> simp

/-- **The parser accepts exactly its grammar.** It reads a document from a source if and only
if all of the source are tokens and these make up the document, so no source has two. -/
theorem parse_eq_ok_iff (source : String) :
    (∀ d : Document α, parse source = .ok d ↔ Grammar.Derives source d) ∧
      ∀ d d' : Document α, Grammar.Derives source d → Grammar.Derives source d' → d = d' := by
  have hparse : ∀ d : Document α, parse source = .ok d ↔ Grammar.Derives source d :=
    fun _ => parse_eq_ok_iff_isDocument
  refine ⟨hparse, ?_⟩
  intro d d' hd hd'
  have hsame := ((hparse d).2 hd).symm.trans ((hparse d').2 hd')
  exact Except.ok.inj hsame

end Sources

end Schematic
