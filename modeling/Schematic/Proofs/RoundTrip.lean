import Schematic.Proofs.FixedPoint
import Schematic.Proofs.Outcome
import Schematic.Proofs.Printing

/-!
# Printing and reading again

A document that was read from a source prints as a source of the same document: only the
places of its parts differ.

* `parse_text`: the document read from the printed text is the document that was printed.
-/

namespace Schematic

variable {α : Type} [Scalar α] [Numeral α]

/-- The text of a sound document is read as the same document, but for the places. -/
theorem Document.exists_parse_text {h : Doubles α} {d : Document α}
    (hd : ∀ l ∈ d.declarations, l.value.Sound h) :
    ∃ d', parse d.text = .ok d' ∧ d'.bare = d.bare := by
  obtain ⟨tokens, hlex, htokens⟩ := (Document.spells_text hd).lex
  obtain ⟨ds, hds, hbare⟩ := Parsing.declarations_tokens d.text.utf8ByteSize hd htokens
  refine ⟨⟨ds⟩, ?_, ?_⟩
  · simp only [parse, hlex, hds]
  · have hmap : ∀ ls : List (Located (Declaration α)), (Document.mk ls).bare =
        ⟨(ls.map fun l => l.value.bare).map fun v => ⟨v, ⟨0, 0⟩⟩⟩ := by
      intro ls
      rw [Document.bare, List.map_map]
      rfl
    rw [hmap, hbare, ← hmap]

/-- **Printing and reading again.** Whatever source a document was read from, if its numbers
are finite, then the printed document is read, and it is the same document in every
declaration, name, field, part of an equation, colour, number, text and comment. -/
theorem parse_text (h : Doubles α) {source : String} {d : Document α}
    (hfinite : ∀ x ∈ numbersOf α source, h.finite x) (hd : parse source = .ok d) :
    ∃ d', parse d.text = .ok d' ∧ d'.bare = d.bare :=
  Document.exists_parse_text (parse_sound hfinite hd)

/-- A source that is not spelled as it is printed: fields on one line, a number with a zero
before it, and equality as a single sign. -/
def untidy : String :=
  "box a\x7bline-width:02;label:\"x\\y\"\x7d//first\nconstrain a.left=-3//second\n"

theorem untidy_reprinted : ∃ d d', parse (α := FixedPoint) untidy = .ok d ∧
    d.text = "box a \x7b\n    line-width: 2\n    label: \"xy\"\n\x7d //first\n" ++
      "constrain a.left == -3 //second\n" ∧
    parse d.text = .ok d' ∧ d'.bare = d.bare := by
  have hread : (parse (α := FixedPoint) untidy).toOption.map Document.text =
      some ("box a \x7b\n    line-width: 2\n    label: \"xy\"\n\x7d //first\n" ++
        "constrain a.left == -3 //second\n") := by decide +kernel
  obtain ⟨d, hd, htext⟩ := Option.map_eq_some_iff.1 hread
  have hok := eq_ok_of_toOption hd
  obtain ⟨d', hd', hbare⟩ := parse_text FixedPoint.doubles (fun _ _ => trivial) hok
  exact ⟨d, d', hok, htext, hd', hbare⟩

end Schematic
