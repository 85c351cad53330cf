import Mathlib
import Schematic.Proofs.Commenting
import Schematic.Proofs.Decimals
import Schematic.Proofs.Digits
import Schematic.Proofs.Outcome

/-!
# The numbers of a source

A number literal below a limit is read as a finite double, and the text of a finite double is a
literal that is read as this double again. The limit is half a last place above the greatest
double: a literal that reaches it, which takes 309 digits before the point, is read as an infinity
and no error. The text of that is a name for the lexer.

* `Literal.isFinite_read`: which literals are read as finite doubles.
* `Literal.isFinite_read_of_length`: those with few digits before the point are.
* `Literal.exists_plain`: the text of a finite double is read as this double.
* `Grammar.IsDocument.numbers`: the numbers of a document are those of its tokens.
* `parse_numbers`: what becomes of the numbers of a source.
* `oversized_infinite`: an infinity among the numbers of a document.
-/

namespace Schematic

open Rounding Decimal

/-! ### Literals and doubles -/

namespace Literal

open Lexeme (digitsValue)

variable {l : Literal} {m : ℕ} {e : ℤ} {x : Float}

theorem size_nonneg (l : Literal) : 0 ≤ l.size := by
  unfold size
  positivity

theorem size_eq_zero : l.size = 0 ↔ digitsValue (l.whole ++ l.fraction) = 0 := by
  rw [size, div_eq_zero_iff, Nat.cast_eq_zero]
  exact or_iff_left (by positivity)

/-- The number is read without its sign, and the sign put before it. -/
theorem ofFloat_read (l : Literal) {b : Binary} (h : Binary.ofFloat (Float.ofScientific
    (digitsValue (l.whole ++ l.fraction)) true l.fraction.length) = b) :
    Binary.ofFloat (l.read Float) = if l.negative then b.negate else b := by
  have hread : l.read Float = if l.negative then -(Float.ofScientific
    (digitsValue (l.whole ++ l.fraction)) true l.fraction.length) else Float.ofScientific
    (digitsValue (l.whole ++ l.fraction)) true l.fraction.length := rfl
  rw [hread]
  split
  · rw [ofFloat_neg, h]
  · exact h

/-- Zero is read as the zero of its sign. -/
theorem ofFloat_read_zero (h : l.size = 0) :
    Binary.ofFloat (l.read Float) = .finite l.negative 0 (-1074) := by
  have hcanonical : Canonical 0 (-1074) := ⟨by decide, le_rfl, .inr rfl⟩
  have hparts := ofFloat_signed false hcanonical
  rw [if_pos (by decide)] at hparts
  have hscientific : Binary.ofFloat (Float.ofScientific (digitsValue (l.whole ++ l.fraction)) true
      l.fraction.length) = .finite false 0 (-1074) := by
    rw [size_eq_zero.1 h, ofScientific_zero]
    exact hparts
  rw [l.ofFloat_read hscientific]
  cases l.negative <;> rfl

/-- **A number is read as the double it is rounded to**, or as an infinity. -/
theorem ofFloat_read_rounds (h : 0 < l.size) : ∃ m e, Rounds l.size m e ∧
    Binary.ofFloat (l.read Float) =
      if e ≤ 971 then .finite l.negative m e else .infinite l.negative := by
  have hdigits := Nat.pos_of_ne_zero (mt size_eq_zero.2 h.ne')
  obtain ⟨m, e, hrounds, hscientific⟩ := ofScientific_rounds hdigits l.fraction.length
  have hparts := ofFloat_signed false (hrounds.canonical h)
  have hread := l.ofFloat_read (congrArg Binary.ofFloat hscientific)
  refine ⟨m, e, hrounds, hread.trans ?_⟩
  rw [show signed .positive m e = signed (signOf false) m e from rfl, hparts]
  cases l.negative <;> by_cases he : e ≤ 971 <;> simp [he, Binary.negate]

/-- **Numbers below the limit are read as finite doubles**, and no others. -/
theorem isFinite_read (l : Literal) : (l.read Float).isFinite = true ↔ l.size < limit := by
  rw [isFinite_iff]
  rcases l.size_nonneg.eq_or_lt with hzero | hpos
  · exact iff_of_true ⟨_, _, _, ofFloat_read_zero hzero.symm⟩ (hzero ▸ limit_pos)
  · obtain ⟨m, e, hrounds, hread⟩ := ofFloat_read_rounds hpos
    rw [hread, ← hrounds.le_iff hpos]
    split <;> simp_all

/-- Up to 308 digits before the point are below the limit. -/
theorem size_lt_limit (h : l.whole.length ≤ 308) : l.size < limit := by
  calc l.size < 10 ^ l.whole.length := l.size_lt
    _ ≤ 10 ^ 308 := pow_le_pow_right₀ (by norm_num) h
    _ < limit := by
      have hlt : 10 ^ 308 < (2 ^ 54 - 1) * 2 ^ 970 := by decide +kernel
      have hcast : ((2 ^ 54 - 1 : ℕ) : ℚ) = 2 ^ 54 - 1 := by norm_num
      rw [limit, show (970 : ℤ) = (970 : ℕ) from rfl, zpow_natCast, ← hcast]
      exact_mod_cast hlt

/-- **Up to 308 digits before the point** a literal is read as a finite double, however many
follow it. -/
theorem isFinite_read_of_length (h : l.whole.length ≤ 308) : (l.read Float).isFinite = true :=
  l.isFinite_read.2 (size_lt_limit h)

/-- From the limit on literals are read as infinities. -/
theorem ofFloat_read_of_limit_le (h : limit ≤ l.size) :
    Binary.ofFloat (l.read Float) = .infinite l.negative := by
  have hpos : 0 < l.size := limit_pos.trans_le h
  obtain ⟨m, e, hrounds, hread⟩ := ofFloat_read_rounds hpos
  rw [hread, if_neg (mt (hrounds.le_iff hpos).1 h.not_gt)]

/-- **The text of a finite double** is a literal that is read as this double. -/
theorem exists_plain (hx : x.isFinite = true) :
    ∃ l : Literal, l.text = Numeral.plain x ∧ l.read Float = x := by
  obtain ⟨negative, m, e, hparts⟩ := (isFinite_iff x).1 hx
  obtain ⟨hc, he⟩ := ofBits_canonical hparts
  obtain ⟨l, rfl, htext, hsize⟩ := exists_positional negative (shortest m e).1 (shortest m e).2
  have hplain : Numeral.plain x = signText l.negative ++
      positional (shortest m e).1 (shortest m e).2 := congrArg Decimal.plain hparts
  refine ⟨l, htext.trans hplain.symm, ofFloat_injective (Eq.trans ?_ hparts.symm)⟩
  rcases Nat.eq_zero_or_pos m with rfl | hm
  · have hleast : e = -1074 := hc.normal.resolve_left (by decide)
    rw [hleast]
    refine ofFloat_read_zero ?_
    rw [hsize, shortest, if_pos rfl, Nat.cast_zero, zero_mul]
  · obtain ⟨hdigits, hcontains⟩ := shortest_contains hm hc
    have hrounds := rounds_of_contains hm hc hdigits hcontains
    rw [← hsize] at hrounds
    have hpos : 0 < l.size := by
      have hd : (0 : ℚ) < (shortest m e).1 := by exact_mod_cast hdigits
      rw [hsize]
      positivity
    obtain ⟨m', e', hrounds', hread⟩ := ofFloat_read_rounds hpos
    obtain ⟨rfl, rfl⟩ := hrounds.unique hrounds'
    rw [hread, if_pos he]

end Literal

/-! ### The numbers of a document -/

section Documents

variable {α : Type}

/-- The number of a token. -/
def Token.number? : Token α → Option α
  | .number x => some x
  | _ => none

/-- The number of a field. -/
def Field.number? : Field α → Option α
  | lineWidth x => some x
  | _ => none

/-- The number of a term. -/
def Term.number? : Term α → Option α
  | constant x => some x
  | operation _ | reference _ => none

/-- The number of a part. -/
def Part.number? : Part α → Option α
  | term t => t.number?
  | relation _ | comment _ => none

/-- The constants of an equation, from left to right. -/
def Equation.numbers (e : Equation α) : List α := (e.left ++ e.right).filterMap Term.number?

/-- The numbers of an item, in their order. -/
def Item.numbers : Item α → List α
  | boxStyle _ fields | box _ fields | connect _ _ fields => fields.filterMap (·.value.number?)
  | constrain e => e.numbers
  | comment _ => []

/-- **The numbers of a document**, in their order. -/
def Document.numbers (d : Document α) : List α := d.declarations.flatMap (·.value.item.numbers)

/-- The constants of an equation are those of the parts it is made up of. -/
theorem Equation.numbers_ofParts [Scalar α] {ps : List (Part α)} {comment : Option String}
    {e : Equation α} (hps : ∀ p ∈ ps, p.isComment = false)
    (he : ofParts (ps ++ (comment.map Part.comment).toList) = .ok e) :
    ps.filterMap Part.number? = e.numbers := by
  have hthrough := (ofParts_eq_ok_iff.1 ((ofParts_recomment hps he).2 none)).1
  rw [Part.throughComment_append hps] at hthrough
  have hsides : ps = e.left.map .term ++ .relation e.relation :: e.right.map .term := by
    simpa [Equation.parts] using hthrough
  rw [hsides, numbers, List.filterMap_append, List.filterMap_append, List.filterMap_cons]
  simp only [List.filterMap_map]
  rfl

namespace Grammar

open Parsing (Tokens)

/-- The numbers among tokens. -/
def numbersIn (ts : Tokens α) : List α := ts.filterMap (·.value.number?)

theorem numbersIn_cons (t : Located (Token α)) (ts : Tokens α) :
    numbersIn (t :: ts) = t.value.number?.toList ++ numbersIn ts := by
  cases h : t.value.number? <;> simp [numbersIn, h]

theorem numbersIn_append (ts us : Tokens α) : numbersIn (ts ++ us) = numbersIn ts ++ numbersIn us :=
  List.filterMap_append

theorem Run.numbers {β : Type} {sep : Token α → Prop} {P : Tokens α → β → Prop} {F : β → List α}
    {ready : Bool} {ts : Tokens α} {bs : List β} (hsep : ∀ t, sep t → t.number? = none)
    (hP : ∀ us b, P us b → numbersIn us = F b) (h : Run sep P ready ts bs) :
    numbersIn ts = bs.flatMap F := by
  induction h with
  | nil => rfl
  | skip ready ht _ ih =>
    rw [numbersIn_cons, hsep _ ht, ih]
    rfl
  | item hb _ ih => rw [numbersIn_append, hP _ _ hb, ih, List.flatMap_cons]

theorem IsTail.numbers {ts : Tokens α} {tail : List String} (h : IsTail ts tail) :
    numbersIn ts = [] := by
  induction h with
  | nil => rfl
  | cons name _ ih => exact ih

theorem IsPart.numbers {ts : Tokens α} {p : Part α} (h : IsPart ts p) :
    numbersIn ts = p.number?.toList := by
  cases h with
  | token h => cases h <;> rfl
  | reference h => exact h.numbers

theorem IsParts.numbers {ts : Tokens α} {ps : List (Part α)} (h : IsParts ts ps) :
    numbersIn ts = ps.filterMap Part.number? := by
  induction h with
  | nil => rfl
  | @cons us vs p ps h _ ih =>
    rw [numbersIn_append, h.numbers, ih]
    cases hp : p.number? <;> simp [hp]

theorem IsTrailing.numbers {ts : Tokens α} {comment : Option String} (h : IsTrailing ts comment) :
    numbersIn ts = [] := by
  cases h <;> rfl

variable [Scalar α] {ts : Tokens α}

theorem Assigns.number? {key : String} {t : Token α} {f : Field α} (h : Assigns key t f) :
    t.number? = f.number? := by
  cases h with
  | background h | textColor h => cases h <;> rfl
  | lineWidth | label | sourceHead | targetHead | style => rfl

theorem IsEntry.numbers {f : Located (Field α)} (h : IsEntry ts f) :
    numbersIn ts = f.value.number?.toList := by
  cases h with
  | comment => rfl
  | field h =>
    rw [numbersIn_cons, numbersIn_cons, numbersIn_cons, h.number?]
    simp [Token.number?, numbersIn]

theorem IsBlock.numbers {fields : List (Located (Field α))} (h : IsBlock ts fields) :
    numbersIn ts = fields.filterMap (·.value.number?) := by
  cases h with
  | braces h =>
    have hentries := (listing_iff_run.1 h).numbers (F := fun f => f.value.number?.toList)
      (fun t ht => by rcases ht with rfl | rfl <;> rfl) fun us f hf => hf.numbers
    rw [numbersIn_cons, numbersIn_append, hentries, ← List.filterMap_eq_flatMap_toList]
    exact List.append_nil _

theorem IsItem.numbers {item : Item α} (h : IsItem ts item) : numbersIn ts = item.numbers := by
  cases h with
  | boxStyle h | box h | connect h => exact h.numbers
  | bareBox => rfl

theorem IsDeclaration.numbers {d : Declaration α} (h : IsDeclaration ts d) :
    numbersIn ts = d.item.numbers := by
  cases h with
  | item h htrailing => rw [numbersIn_append, h.numbers, htrailing.numbers, List.append_nil]
  | @constrain _ us vs ps comment e h hne hcomment he =>
    rw [numbersIn_cons, numbersIn_append, h.numbers, hcomment.numbers, List.append_nil]
    exact Equation.numbers_ofParts h.recomment.2 he
  | comment => rfl

/-- **The numbers of a document** are those of its tokens. -/
theorem IsDocument.numbers {d : Document α} (h : IsDocument ts d) : numbersIn ts = d.numbers :=
  (listing_iff_run.1 h).numbers (fun t ht => by rw [ht]; rfl) fun us l hl => hl.1.numbers

end Grammar

end Documents

/-! ### The literals of a source -/

section Sources

variable {α : Type} [Numeral α] {source : String}

/-- Every number among the tokens of a source is that of a literal in its place. -/
theorem exists_literals {tokens part : List (Located (Token α))} (hlex : lex source = .ok tokens)
    (hpart : part.Sublist tokens) : ∃ literals : List (Located Literal),
      (literals.map (·.span)).Sublist (part.map (·.span)) ∧
      (∀ l ∈ literals, l.span.Cuts source l.value.text) ∧
      Grammar.numbersIn part = literals.map (·.value.read α) := by
  induction part with
  | nil => exact ⟨[], List.Sublist.refl _, by simp, rfl⟩
  | cons t part ih =>
    obtain ⟨literals, hspans, hcuts, hnumbers⟩ := ih ((List.sublist_cons_self t part).trans hpart)
    rw [Grammar.numbersIn_cons, hnumbers]
    cases ht : t.value.number? with
    | none => exact ⟨literals, hspans.trans (List.sublist_cons_self _ _), hcuts, rfl⟩
    | some x =>
      have htoken : t.value = .number x := by
        unfold Token.number? at ht
        split at ht
        · rename_i heq
          rw [heq, Option.some.inj ht]
        · simp at ht
      obtain ⟨w, rest, hcut, -, hw⟩ :=
        (lex_eq_ok_iff.1 hlex).exists_cut (hpart.subset List.mem_cons_self)
      rw [htoken] at hw
      obtain ⟨l, rfl, rfl⟩ := hw.literal
      rw [String.ofList_toList] at hcut
      exact ⟨⟨l, t.span⟩ :: literals, hspans.cons_cons _, List.forall_mem_cons.2 ⟨hcut, hcuts⟩, rfl⟩

end Sources

/-- **A double that stays a number**: it is finite, and its text is read as one token, which is
this number again. -/
structure StaysNumber (x : Float) : Prop where
  finite : x.isFinite = true
  again : ∃ s, lex (Numeral.plain x) = .ok [⟨.number x, s⟩]

/-- **A double that is no number any more**: it is infinite, and its text has tokens, but no
number among them. -/
structure LosesNumber (x : Float) : Prop where
  infinite : x.isInf = true
  again : ∃ tokens, lex (α := Float) (Numeral.plain x) = .ok tokens ∧ Grammar.numbersIn tokens = []

theorem staysNumber_of_isFinite {x : Float} (hx : x.isFinite = true) : StaysNumber x := by
  obtain ⟨l, htext, hread⟩ := Literal.exists_plain hx
  refine ⟨hx, ⟨0, l.text.utf8ByteSize⟩, ?_⟩
  rw [← htext, l.lex_text (α := Float), hread]

theorem losesNumber_of_infinite {x : Float} {negative : Bool}
    (hx : Binary.ofFloat x = .infinite negative) : LosesNumber x := by
  have hplain : Numeral.plain x = signText negative ++ "inf" := congrArg Decimal.plain hx
  have hlex : lex (α := Float) (signText negative ++ "inf") = .ok (if negative then
      [⟨.minus, ⟨0, 1⟩⟩, ⟨.name "inf", ⟨1, 4⟩⟩] else [⟨.name "inf", ⟨0, 3⟩⟩]) := by
    cases negative <;> decide +kernel
  refine ⟨(isInf_iff x).2 ⟨negative, hx⟩, _, hplain ▸ hlex, ?_⟩
  cases negative <;> rfl

/-- **What becomes of the numbers of a source.** The numbers of a document that was read, the
constants of its equations and the values of its fields, are those of the literals of the source,
each in its place and in their order. A literal below the limit is read as a finite double, and the
text of this double is one token, the same number again. From the limit on, which takes 309 digits
before the point, it is read as an infinity, and the text of that holds no number. -/
theorem parse_numbers {source : String} {d : Document Float} (h : parse source = .ok d) :
    ∃ literals : List (Located Literal),
      Span.InOrder ⟨0, source.utf8ByteSize⟩ (literals.map (·.span)) ∧
      (∀ l ∈ literals, l.span.Cuts source l.value.text) ∧
      d.numbers = literals.map (·.value.read Float) ∧
      ∀ l ∈ literals, (l.value.size < limit → StaysNumber (l.value.read Float)) ∧
        (limit ≤ l.value.size → LosesNumber (l.value.read Float)) := by
  obtain ⟨tokens, hlex, hdocument⟩ := parse_eq_ok_iff_isDocument.1 h
  obtain ⟨literals, hspans, hcuts, hnumbers⟩ := exists_literals hlex (List.Sublist.refl tokens)
  refine ⟨literals, (lex_eq_ok_iff.1 hlex).inOrder_source.sublist hspans, hcuts,
    hdocument.numbers.symm.trans hnumbers, fun l _ => ⟨fun hlt => ?_, fun hle => ?_⟩⟩
  · exact staysNumber_of_isFinite ((Literal.isFinite_read l.value).2 hlt)
  · exact losesNumber_of_infinite (Literal.ofFloat_read_of_limit_le hle)

/-! ### A number that is too large -/

theorem lex_ofList {α : Type} [Numeral α] {text : List Char} {tokens : List (Located (Token α))}
    (h : pieces 0 text = tokens.map fun t => ⟨.token t.value, t.span⟩) :
    lex (String.ofList text) = .ok tokens := by
  unfold lex
  rw [String.toList_ofList, h]
  simp only [(tokensOf_map tokens).1, (tokensOf_map tokens).2, List.isEmpty_nil, if_true]

/-- A constant with a fraction, and a field value with 310 digits. -/
def oversized : String := String.ofList
  ("constrain a.width == 0.1\nbox a \x7b line-width: 1".toList ++ List.replicate 309 '0' ++
    " \x7d".toList)

/-- What the second number is read as. -/
def infinity : Float := .ofBits 0x7FF0000000000000

/-- The document of this source. -/
def oversizedDocument : Document Float where
  declarations := [
    ⟨⟨.constrain ⟨.equal, [.reference ⟨"a", ["width"]⟩], [.constant 0.1], none⟩, none⟩, ⟨0, 24⟩⟩,
    ⟨⟨.box ⟨"a", ⟨29, 30⟩⟩ [⟨.lineWidth infinity, ⟨33, 355⟩⟩], none⟩, ⟨25, 357⟩⟩]

theorem parse_oversized : parse oversized = .ok oversizedDocument := by
  have hlex : lex (α := Float) oversized = .ok [⟨.constrain, ⟨0, 9⟩⟩, ⟨.name "a", ⟨10, 11⟩⟩,
      ⟨.dot, ⟨11, 12⟩⟩, ⟨.name "width", ⟨12, 17⟩⟩, ⟨.equalEqual, ⟨18, 20⟩⟩, ⟨.number 0.1, ⟨21, 24⟩⟩,
      ⟨.lineBreak, ⟨24, 25⟩⟩, ⟨.box, ⟨25, 28⟩⟩, ⟨.name "a", ⟨29, 30⟩⟩, ⟨.braceOpen, ⟨31, 32⟩⟩,
      ⟨.name "line-width", ⟨33, 43⟩⟩, ⟨.colon, ⟨43, 44⟩⟩, ⟨.number infinity, ⟨45, 355⟩⟩,
      ⟨.braceClose, ⟨356, 357⟩⟩] := by
    refine lex_ofList ?_
    decide +kernel
  exact parse_eq_ok_iff_isDocument.2 ⟨_, hlex, (Parsing.declarations_eq_ok_iff 0).1
    (by decide +kernel)⟩

/-- The constant stays a number, and the field value does not. -/
theorem oversized_numbers : ∃ d, parse oversized = .ok d ∧ d.numbers = [0.1, infinity] ∧
    StaysNumber 0.1 ∧ LosesNumber infinity := by
  refine ⟨_, parse_oversized, rfl, ?_⟩
  obtain ⟨literals, -, -, hnumbers, hkinds⟩ := parse_numbers parse_oversized
  obtain ⟨l, rest, rfl, htenth, hrest⟩ := List.map_eq_cons_iff.1 hnumbers.symm
  obtain ⟨l', rest, rfl, hinfinity, -⟩ := List.map_eq_cons_iff.1 hrest
  have hfirst := hkinds l (by simp)
  have hsecond := hkinds l' (by simp)
  rw [htenth] at hfirst
  rw [hinfinity] at hsecond
  -- which side of the limit they are on shows in what they are
  constructor
  · refine hfirst.1 (lt_of_not_ge fun hle => ?_)
    exact absurd (hfirst.2 hle).infinite (by decide +kernel)
  · refine hsecond.2 (le_of_not_gt fun hlt => ?_)
    exact absurd (hsecond.1 hlt).finite (by decide +kernel)

/-- **Not every number of a document is finite**: a field value may be infinite, and the text of
it is no number. -/
theorem oversized_infinite : ¬∀ (source : String) (d : Document Float), parse source = .ok d →
    ∀ x ∈ d.numbers, x.isFinite = true ∧ ∃ s, lex (Numeral.plain x) = .ok [⟨.number x, s⟩] := by
  intro hall
  obtain ⟨hfinite, -⟩ := hall oversized oversizedDocument parse_oversized infinity
    (by simp [Document.numbers, oversizedDocument, Item.numbers, Field.number?])
  exact absurd hfinite (by decide +kernel)

end Schematic
