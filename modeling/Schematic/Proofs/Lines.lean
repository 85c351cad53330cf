import Mathlib
import Schematic.Model.Build
import Schematic.Proofs.Derivation

/-!
# Lines of a source

Every declaration of a document that was read is a line of its source, made up of tokens of
the source. So the names in it are names, and its equations are made up of parts.

* `exists_isLine`: every declaration that was read is a line.
* `Document.Lexical`: all names of a document are names of the language.
* `parse_lexical`, `parse_equations`: what holds of documents that were read.
-/

namespace Schematic

variable {α : Type}

namespace Grammar

open Parsing (Tokens)

/-! ### Phrases of a listing -/

section Listings

variable {β : Type} {sep : Token α → Prop} {P : Tokens α → β → Prop} {ts : Tokens α} {b : β}
  {bs : List β} {ready : Bool}

/-- The tokens of a phrase of a listing are next to each other. -/
theorem Run.exists_phrase (h : Run sep P ready ts bs) (hb : b ∈ bs) :
    ∃ us, P us b ∧ us <:+: ts := by
  induction h with
  | nil ready => simp at hb
  | skip ready ht _ ih =>
    obtain ⟨us, hus, hts⟩ := ih hb
    exact ⟨us, hus, List.infix_cons hts⟩
  | @item us ts b bs hus _ ih =>
    rcases List.mem_cons.1 hb with rfl | hb
    · exact ⟨us, hus, (List.prefix_append us ts).isInfix⟩
    · obtain ⟨vs, hvs, hts⟩ := ih hb
      exact ⟨vs, hvs, hts.trans (List.suffix_append us ts).isInfix⟩

end Listings

end Grammar

/-! ### Names -/

/-- The names that a field gives for its value. -/
def Field.names : Field α → List String
  | sourceHead name | targetHead name | style name => [name]
  | background _ | textColor _ | lineWidth _ | label _ | comment _ => []

/-- The names that an item declares or that its fields give. -/
def Item.names : Item α → List String
  | boxStyle name fields | box name fields => name.value :: fields.flatMap (·.value.names)
  | connect source target fields =>
    source.value :: target.value :: fields.flatMap (·.value.names)
  | constrain _ | comment _ => []

/-- **All names of a document** are names of the language. -/
def Document.Lexical (d : Document α) : Prop :=
  ∀ l ∈ d.declarations, ∀ name ∈ l.value.item.names, IsName name

namespace Grammar

open Parsing (Tokens)

variable [Scalar α] {ts : Tokens α}

theorem Assigns.isName {key : String} {t : Token α} {f : Field α} (h : Assigns key t f)
    (ht : t.Sound) : ∀ name ∈ f.names, IsName name := by
  intro name hname
  cases h with
  | sourceHead n | targetHead n | style n =>
    obtain rfl := List.mem_singleton.1 hname
    exact ht
  | background | textColor | lineWidth | label => simp [Field.names] at hname

theorem IsEntry.isName {f : Located (Field α)} (h : IsEntry ts f) (hts : ∀ t ∈ ts, t.value.Sound) :
    ∀ name ∈ f.value.names, IsName name := by
  cases h with
  | comment text s => simp [Field.names]
  | field hassigns =>
    simp only [List.forall_mem_cons] at hts
    exact hassigns.isName hts.2.2.1

theorem IsBlock.isName {fields : List (Located (Field α))} (h : IsBlock ts fields)
    (hts : ∀ t ∈ ts, t.value.Sound) : ∀ name ∈ fields.flatMap (·.value.names), IsName name := by
  cases h with
  | braces hlisting =>
    intro name hname
    obtain ⟨f, hf, hname⟩ := List.mem_flatMap.1 hname
    obtain ⟨us, hentry, hpart⟩ := (listing_iff_run.1 hlisting).exists_phrase hf
    exact hentry.isName (fun t ht => hts t (by simp [hpart.subset ht])) name hname

theorem IsItem.isName {item : Item α} (h : IsItem ts item) (hts : ∀ t ∈ ts, t.value.Sound) :
    ∀ name ∈ item.names, IsName name := by
  cases h with
  | boxStyle hblock | box hblock =>
    simp only [List.forall_mem_cons] at hts
    obtain ⟨-, hname, hrest⟩ := hts
    exact List.forall_mem_cons.2 ⟨hname, hblock.isName hrest⟩
  | bareBox =>
    simp only [List.forall_mem_cons] at hts
    exact List.forall_mem_cons.2 ⟨hts.2.1, by simp⟩
  | connect hblock =>
    simp only [List.forall_mem_cons] at hts
    obtain ⟨-, hsource, htarget, hrest⟩ := hts
    exact List.forall_mem_cons.2 ⟨hsource, List.forall_mem_cons.2 ⟨htarget, hblock.isName hrest⟩⟩

theorem IsDeclaration.isName {d : Declaration α} (h : IsDeclaration ts d)
    (hts : ∀ t ∈ ts, t.value.Sound) : ∀ name ∈ d.item.names, IsName name := by
  cases h with
  | item hitem _ => exact hitem.isName fun t ht => hts t (List.mem_append_left _ ht)
  | constrain | comment => simp [Item.names]

end Grammar

/-! ### Documents that were read -/

section Sources

variable [Scalar α] [Numeral α] {source : String} {d : Document α}

/-- Every declaration that was read is a line of sound tokens. -/
theorem exists_isLine (h : parse source = .ok d) : ∀ l ∈ d.declarations,
    ∃ ts, Grammar.IsLine ts l ∧ ∀ t ∈ ts, t.value.Sound := by
  intro l hl
  obtain ⟨tokens, hlex, hdocument⟩ := parse_eq_ok_iff_isDocument.1 h
  obtain ⟨ts, hline, hpart⟩ := (Grammar.listing_iff_run.1 hdocument).exists_phrase hl
  exact ⟨ts, hline, fun t ht => lex_sound hlex t (hpart.subset ht)⟩

/-- **The names of a source** are names of the language. -/
theorem parse_lexical (h : parse source = .ok d) : d.Lexical := by
  intro l hl
  obtain ⟨ts, ⟨hdeclaration, -⟩, hsound⟩ := exists_isLine h l hl
  exact hdeclaration.isName hsound

/-- **The equations of a source** are made up of parts. -/
theorem parse_equations (h : parse source = .ok d) : ∀ e ∈ d.equations,
    ∃ parts, Equation.ofParts parts = .ok e.value := by
  intro e he
  obtain ⟨l, hl, hle⟩ := List.mem_filterMap.1 he
  obtain ⟨ts, ⟨hdeclaration, -⟩, -⟩ := exists_isLine h l hl
  split at hle
  · rename_i equation hitem
    obtain rfl := Option.some.inj hle
    generalize l.value = declaration at hdeclaration hitem
    cases hdeclaration with
    | item hitem' _ =>
      obtain rfl : _ = Item.constrain equation := hitem
      cases hitem'
    | constrain _ _ _ hparts =>
      obtain rfl := Item.constrain.inj hitem
      exact ⟨_, hparts⟩
    | comment => simp at hitem
  · simp at hle

end Sources

end Schematic
