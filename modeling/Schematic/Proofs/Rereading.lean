import Schematic.Proofs.Sound
import Schematic.Proofs.Spelling

/-!
# Reading printed tokens

The tokens that a document is printed with, and that reading them gives the document back,
up to the places of its parts.

* `Document.bare`: a document without the places of its parts.
* `Document.tokens`: the tokens that a document is printed with.
* `Parsing.entries_tokens`, `Parsing.constraint_tokens`, `Parsing.declaration_tokens`: what
  reading makes of the tokens of fields, of an equation and of a declaration.
* `Parsing.declarations_tokens`: the tokens of a sound document read back.
-/

namespace Schematic

variable {α : Type}

/-! ### Documents without places -/

/-- A value without its place. -/
def Located.bare {β : Type} (l : Located β) : Located β := ⟨l.value, ⟨0, 0⟩⟩

/-- An item without the places of its names and fields. -/
def Item.bare : Item α → Item α
  | boxStyle name fields => boxStyle name.bare (fields.map Located.bare)
  | box name fields => box name.bare (fields.map Located.bare)
  | connect source target fields => connect source.bare target.bare (fields.map Located.bare)
  | constrain equation => constrain equation
  | comment text => comment text

/-- A declaration without places. -/
def Declaration.bare (d : Declaration α) : Declaration α := ⟨d.item.bare, d.trailing⟩

/-- **A document without places**: what it declares, and nothing of where. -/
def Document.bare (d : Document α) : Document α :=
  ⟨d.declarations.map fun l => ⟨l.value.bare, ⟨0, 0⟩⟩⟩

theorem Located.bare_eq {β : Type} {l m : Located β} (h : l.value = m.value) : l.bare = m.bare := by
  rw [bare, bare, h]

theorem Located.map_bare_eq {β : Type} {ls ms : List (Located β)}
    (h : ls.map (·.value) = ms.map (·.value)) : ls.map bare = ms.map bare := by
  have hmap : ∀ ks : List (Located β), ks.map bare = (ks.map (·.value)).map fun v => ⟨v, ⟨0, 0⟩⟩ := by
    intro ks
    rw [List.map_map]
    rfl
  rw [hmap, hmap, h]

/-- Values with a first one are the values of something with a first part. -/
theorem Located.exists_of_map_eq_cons {β : Type} {ls : List (Located β)} {v : β} {vs : List β}
    (h : ls.map (·.value) = v :: vs) : ∃ s ms, ls = ⟨v, s⟩ :: ms ∧ ms.map (·.value) = vs := by
  obtain ⟨⟨v, s⟩, ms, rfl, rfl, hms⟩ := List.map_eq_cons_iff.1 h
  exact ⟨s, ms, rfl, hms⟩

/-! ### Printed tokens -/

section Tokens

variable [Scalar α]

/-- The token of a field's value. Colours are printed by their bytes. -/
def Field.valueToken : Field α → Token α
  | background c | textColor c => .hex c.text
  | lineWidth x => .number x
  | label text => .quoted text
  | sourceHead name | targetHead name | style name => .name name
  | comment text => .comment text

/-- The tokens of a field. -/
def Field.tokens (f : Field α) : List (Token α) :=
  match f.key? with
  | some key => [.name key.text, .colon, f.valueToken]
  | none => [f.valueToken]

/-- The tokens of fields, one a line. -/
def entryTokens (fields : List (Located (Field α))) : List (Token α) :=
  fields.flatMap fun f => f.value.tokens ++ [.lineBreak]

/-- The tokens of a block. -/
def blockTokens (fields : List (Located (Field α))) : List (Token α) :=
  if fields.isEmpty then [.braceOpen, .braceClose]
  else .braceOpen :: .lineBreak :: (entryTokens fields ++ [.braceClose])

/-- The tokens of a part of an equation. -/
def Part.tokens : Part α → List (Token α)
  | term (.constant x) => [.number x]
  | term (.operation op) => [op.token]
  | term (.reference r) => .name r.head :: r.tail.flatMap fun name => [.dot, .name name]
  | relation r => [r.token]
  | comment text => [.comment text]

/-- The tokens of an item. -/
def Item.tokens : Item α → List (Token α)
  | boxStyle name fields => .boxStyle :: .name name.value :: blockTokens fields
  | box name fields =>
    .box :: .name name.value :: (if fields.isEmpty then [] else blockTokens fields)
  | connect source target fields =>
    .connect :: .name source.value :: .name target.value :: blockTokens fields
  | constrain equation => .constrain :: equation.parts.flatMap Part.tokens
  | comment text => [.comment text]

/-- The tokens of a declaration. -/
def Declaration.tokens (d : Declaration α) : List (Token α) :=
  d.item.tokens ++ (d.trailing.map Token.comment).toList

/-- **The tokens of a document**, one declaration a line. -/
def Document.tokens (d : Document α) : List (Token α) :=
  d.declarations.flatMap fun l => l.value.tokens ++ [.lineBreak]

theorem exists_blockTokens_eq_cons (fields : List (Located (Field α))) :
    ∃ more, blockTokens fields = .braceOpen :: more := by
  unfold blockTokens
  split <;> exact ⟨_, rfl⟩

/-- A declaration is not printed with a line break first. -/
theorem Declaration.exists_tokens_eq_cons (d : Declaration α) :
    ∃ t more, d.tokens = t :: more ∧ t ≠ .lineBreak := by
  obtain ⟨item, trailing⟩ := d
  cases item <;> exact ⟨_, _, rfl, by simp⟩

end Tokens

/-! ### Fields -/

variable [Scalar α] [Numeral α] {h : Doubles α}

theorem FieldKey.ofText?_text (key : FieldKey) : ofText? key.text = some key := by
  cases key <;> decide

/-- **A sound field** reads back from its name and the token of its value. -/
theorem Field.read_valueToken {f : Field α} {key : FieldKey} (hf : f.Sound h)
    (hkey : f.key? = some key) :
    ∃ value, RawValue.ofToken? f.valueToken = some value ∧ Field.read key.text value = .ok f := by
  have hread := FieldKey.ofText?_text key
  cases f with
  | background c =>
    obtain rfl := Option.some.inj hkey
    refine ⟨_, rfl, ?_⟩
    simp only [Field.read, hread, Field.readColor, h.ofHex?_text hf]
    rfl
  | textColor c =>
    obtain rfl := Option.some.inj hkey
    refine ⟨_, rfl, ?_⟩
    simp only [Field.read, hread, Field.readColor, h.ofHex?_text hf]
    rfl
  | comment text => simp [Field.key?] at hkey
  | _ =>
    obtain rfl := Option.some.inj hkey
    exact ⟨_, rfl, rfl⟩

/-- The parts of an equation up to its comment. -/
def Equation.sides (e : Equation α) : List (Part α) :=
  e.left.map .term ++ .relation e.relation :: e.right.map .term

omit [Scalar α] [Numeral α] in
theorem Equation.ne_comment_of_mem_sides {e : Equation α} :
    ∀ p ∈ e.sides, ∀ text, p ≠ .comment text := by
  rintro p hp text rfl
  simp [Equation.sides] at hp

namespace Parsing

variable (stop : ℕ) {ts : Tokens α} {rest : List (Token α)}

omit [Scalar α] [Numeral α] in
/-- The tokens of a name read back. -/
theorem name_tokens {text : String} (hts : ts.map (·.value) = .name text :: rest) :
    ∃ p, name stop ts = .ok p ∧ p.value.value = text ∧ p.rest.map (·.value) = rest := by
  obtain ⟨s, us, rfl, hus⟩ := Located.exists_of_map_eq_cons hts
  exact ⟨_, rfl, rfl, hus⟩

omit [Numeral α] in
theorem entries_comment {stop : ℕ} {text : String} {s : Span} {p : Parsed α (List (Located (Field α)))}
    (hp : entries stop false ts = .ok p) :
    entries stop true (⟨.comment text, s⟩ :: ts) =
      .ok { p with value := ⟨.comment text, s⟩ :: p.value } := by
  simp only [entries, hp]
  rfl

omit [Numeral α] in
theorem entries_field {stop : ℕ} {key : String} {s c e : Span} {token : Token α} {value : RawValue α}
    {f : Field α} {p : Parsed α (List (Located (Field α)))}
    (hvalue : RawValue.ofToken? token = some value) (hf : Field.read key value = .ok f)
    (hp : entries stop false ts = .ok p) :
    entries stop true (⟨.name key, s⟩ :: ⟨.colon, c⟩ :: ⟨token, e⟩ :: ts) =
      .ok { p with value := ⟨f, ⟨s.start, e.stop⟩⟩ :: p.value } := by
  simp only [entries, hvalue, hf, hp]
  rfl

/-- **The tokens of fields** read back, up to the brace that closes their block. -/
theorem entries_tokens {fields : List (Located (Field α))}
    (hsound : ∀ f ∈ fields, f.value.Sound h)
    (hts : ts.map (·.value) = entryTokens fields ++ .braceClose :: rest) :
    ∃ p, entries stop true ts = .ok p ∧ p.value.map (·.value) = fields.map (·.value) ∧
      p.rest.map (·.value) = rest := by
  induction fields generalizing ts with
  | nil =>
    obtain ⟨s, us, rfl, hus⟩ := Located.exists_of_map_eq_cons hts
    exact ⟨⟨[], s.stop, us⟩, by rw [entries], rfl, hus⟩
  | cons f fields ih =>
    obtain ⟨hf, hfields⟩ := List.forall_mem_cons.1 hsound
    have hcons : entryTokens (f :: fields) ++ .braceClose :: rest =
        f.value.tokens ++ .lineBreak :: (entryTokens fields ++ .braceClose :: rest) := by
      simp [entryTokens]
    -- the line break after a field makes the next one possible
    have hnext : ∀ us : Tokens α,
        us.map (·.value) = .lineBreak :: (entryTokens fields ++ .braceClose :: rest) →
        ∃ p, entries stop false us = .ok p ∧ p.value.map (·.value) = fields.map (·.value) ∧
          p.rest.map (·.value) = rest := by
      intro us hus
      obtain ⟨s, vs, rfl, hvs⟩ := Located.exists_of_map_eq_cons hus
      obtain ⟨p, hp, hvalue, hrest⟩ := ih hfields hvs
      exact ⟨p, by rw [entries, hp], hvalue, hrest⟩
    rw [hcons] at hts
    cases hkey : f.value.key? with
    | none =>
      obtain ⟨text, hcomment⟩ : ∃ text, f.value = .comment text := by
        cases hvalue : f.value <;> simp_all [Field.key?]
      rw [hcomment] at hts
      obtain ⟨s, us, rfl, hus⟩ := Located.exists_of_map_eq_cons hts
      obtain ⟨p, hp, hvalue, hrest⟩ := hnext us hus
      refine ⟨_, entries_comment hp, ?_, hrest⟩
      rw [List.map_cons, List.map_cons, hvalue, hcomment]
    | some key =>
      have htokens : f.value.tokens = [.name key.text, .colon, f.value.valueToken] := by
        rw [Field.tokens, hkey]
      rw [htokens] at hts
      obtain ⟨s, us, rfl, hus⟩ := Located.exists_of_map_eq_cons hts
      obtain ⟨c, vs, rfl, hvs⟩ := Located.exists_of_map_eq_cons hus
      obtain ⟨e, ws, rfl, hws⟩ := Located.exists_of_map_eq_cons hvs
      obtain ⟨value, hvalue, hread⟩ := Field.read_valueToken hf hkey
      obtain ⟨p, hp, hvalues, hrest⟩ := hnext ws hws
      refine ⟨_, entries_field hvalue hread hp, ?_, hrest⟩
      rw [List.map_cons, List.map_cons, hvalues]

/-- The tokens of a block read back. -/
theorem block_tokens {fields : List (Located (Field α))} (hsound : ∀ f ∈ fields, f.value.Sound h)
    (hts : ts.map (·.value) = blockTokens fields ++ rest) :
    ∃ p, block stop ts = .ok p ∧ p.value.map (·.value) = fields.map (·.value) ∧
      p.rest.map (·.value) = rest := by
  unfold blockTokens at hts
  split at hts
  · rename_i hempty
    obtain rfl := List.isEmpty_iff.1 hempty
    obtain ⟨s, us, rfl, hus⟩ := Located.exists_of_map_eq_cons hts
    exact entries_tokens stop hsound hus
  · obtain ⟨s, us, rfl, hus⟩ := Located.exists_of_map_eq_cons hts
    obtain ⟨s', vs, rfl, hvs⟩ := Located.exists_of_map_eq_cons hus
    obtain ⟨p, hp, hvalue, hrest⟩ := entries_tokens stop hsound (hvs.trans (List.append_assoc _ _ _))
    exact ⟨p, by rw [block, entries, hp], hvalue, hrest⟩

/-! ### Constraints -/

omit [Scalar α] [Numeral α] in
/-- The names of a reference read back where no dot follows. -/
theorem readTail_tokens {tail : List String} (hdot : rest.head? ≠ some .dot)
    (hts : ts.map (·.value) = (tail.flatMap fun name => [.dot, .name name]) ++ rest) :
    (readTail ts).1 = tail ∧ (readTail ts).2.map (·.value) = rest := by
  induction tail generalizing ts with
  | nil =>
    rw [List.flatMap_nil, List.nil_append] at hts
    unfold readTail
    split
    · subst hts
      simp at hdot
    · exact ⟨rfl, hts⟩
  | cons name tail ih =>
    obtain ⟨s, us, rfl, hus⟩ := Located.exists_of_map_eq_cons hts
    obtain ⟨s', vs, rfl, hvs⟩ := Located.exists_of_map_eq_cons hus
    obtain ⟨htail, hrest⟩ := ih hvs
    rw [readTail]
    exact ⟨congrArg (name :: ·) htail, hrest⟩

/-- The tokens that end the parts of an equation: a comment and a line break. -/
def EndsParts (t : Token α) : Prop := t = .lineBreak ∨ ∃ text, t = .comment text

omit [Scalar α] [Numeral α] in
/-- The tokens of a part do not go on with a dot. -/
theorem head?_tokens_ne_dot {parts : List (Part α)} {t : Token α} (ht : EndsParts t) :
    (parts.flatMap Part.tokens ++ t :: rest).head? ≠ some .dot := by
  cases parts with
  | nil => rcases ht with rfl | ⟨text, rfl⟩ <;> simp
  | cons p parts =>
    rcases p with (x | op | r) | r | text
    · simp [Part.tokens]
    · cases op <;> simp [Part.tokens, Operation.token]
    · simp [Part.tokens]
    · cases r <;> simp [Part.tokens, Relation.token]
    · simp [Part.tokens]

omit [Scalar α] [Numeral α] in
theorem readParts_name {name : String} {s : Span} : readParts (⟨.name name, s⟩ :: ts) =
    (.term (.reference ⟨name, (readTail ts).1⟩) :: (readParts (readTail ts).2).1,
      (readParts (readTail ts).2).2) := by
  rw [readParts]

omit [Scalar α] [Numeral α] in
theorem readParts_cons {t : Located (Token α)} {p : Part α}
    (hp : Part.ofToken? t.value = some p) :
    readParts (t :: ts) = (p :: (readParts ts).1, (readParts ts).2) := by
  rw [readParts]
  split
  · rename_i name hname
    rw [hname] at hp
    simp [Part.ofToken?] at hp
  · rename_i p' hp' _
    obtain rfl := Option.some.inj (hp'.symm.trans hp)
    rfl
  · rename_i hnone _
    rw [hnone] at hp
    simp at hp

omit [Scalar α] [Numeral α] in
theorem readParts_end {t : Located (Token α)} (ht : EndsParts t.value) :
    readParts (t :: ts) = ([], t :: ts) := by
  obtain ⟨t, s⟩ := t
  rcases ht with rfl | ⟨text, rfl⟩ <;> rw [readParts] <;> simp [Part.ofToken?]

omit [Scalar α] [Numeral α] in
/-- **The tokens of parts** read back, up to the comment or the end of the line. -/
theorem readParts_tokens {parts : List (Part α)} {t : Token α} (ht : EndsParts t)
    (hparts : ∀ p ∈ parts, ∀ text, p ≠ .comment text)
    (hts : ts.map (·.value) = parts.flatMap Part.tokens ++ t :: rest) :
    (readParts ts).1 = parts ∧ (readParts ts).2.map (·.value) = t :: rest := by
  induction parts generalizing ts with
  | nil =>
    obtain ⟨s, us, rfl, hus⟩ := Located.exists_of_map_eq_cons hts
    rw [readParts_end ht]
    exact ⟨rfl, hts⟩
  | cons p parts ih =>
    obtain ⟨hp, hall⟩ := List.forall_mem_cons.1 hparts
    -- all parts but references are single tokens
    have hsingle : ∀ token : Token α, p.tokens = [token] → Part.ofToken? token = some p →
        (readParts ts).1 = p :: parts ∧ (readParts ts).2.map (·.value) = t :: rest := by
      intro token htokens hof
      rw [List.flatMap_cons, htokens] at hts
      obtain ⟨s, us, rfl, hus⟩ := Located.exists_of_map_eq_cons hts
      obtain ⟨hvalue, hrest⟩ := ih hall hus
      rw [readParts_cons hof]
      exact ⟨congrArg (p :: ·) hvalue, hrest⟩
    rcases p with (x | op | r) | r | text
    · exact hsingle _ rfl rfl
    · exact hsingle _ rfl (by cases op <;> rfl)
    · rw [List.flatMap_cons, List.append_assoc] at hts
      obtain ⟨s, us, rfl, hus⟩ := Located.exists_of_map_eq_cons hts
      obtain ⟨htail, hafter⟩ := readTail_tokens (head?_tokens_ne_dot ht) hus
      obtain ⟨hvalue, hrest⟩ := ih hall hafter
      rw [readParts_name, htail]
      exact ⟨congrArg (_ :: ·) hvalue, hrest⟩
    · exact hsingle _ rfl (by cases r <;> rfl)
    · exact absurd rfl (hp text)

omit [Numeral α] in
/-- A constraint whose line ends after its parts and their comment. -/
theorem constraint_of_ofParts (start : ℕ) {e : Equation α} {s : Span} {us : Tokens α}
    (hne : (readParts ts).1.isEmpty = false)
    (he : Equation.ofParts ((readParts ts).1 ++
      ((takeComment (readParts ts).2).1.map Part.comment).toList) = .ok e)
    (hafter : (takeComment (readParts ts).2).2 = ⟨.lineBreak, s⟩ :: us) :
    ∃ line, constraint start stop ts = .ok line ∧
      line.declaration.value = ⟨.constrain e, none⟩ ∧ line.rest = ⟨.lineBreak, s⟩ :: us := by
  unfold constraint
  simp only [hne, he, hafter]
  exact ⟨_, rfl, rfl, rfl⟩

/-- **The tokens of a sound equation** read back. -/
theorem constraint_tokens (start : ℕ) {e : Equation α} (he : e.Sound h)
    (hts : ts.map (·.value) = e.parts.flatMap Part.tokens ++ .lineBreak :: rest) :
    ∃ line, constraint start stop ts = .ok line ∧
      line.declaration.value = ⟨.constrain e, none⟩ ∧
      line.rest.map (·.value) = .lineBreak :: rest := by
  have hparts : e.parts = e.sides ++ (e.comment.map .comment).toList := rfl
  have hequation : Equation.ofParts (e.sides ++ (e.comment.map .comment).toList) = .ok e :=
    Equation.ofParts_eq_ok.2 he.assembled
  have hne : e.sides.isEmpty = false := by simp [Equation.sides]
  rw [hparts, List.flatMap_append, List.append_assoc] at hts
  -- the parts are read up to the comment, which is put behind them again
  cases hcomment : e.comment with
  | none =>
    rw [hcomment] at hts hequation
    obtain ⟨hread, hrest⟩ := readParts_tokens (.inl rfl) Equation.ne_comment_of_mem_sides hts
    obtain ⟨s, us, hafter, hus⟩ := Located.exists_of_map_eq_cons hrest
    have htaken : takeComment (readParts ts).2 = (none, ⟨.lineBreak, s⟩ :: us) := by
      rw [hafter]
      rfl
    obtain ⟨line, hline, hvalue, hleft⟩ := constraint_of_ofParts stop start
      (hread ▸ hne) (by rw [hread, htaken]; exact hequation) (by rw [htaken])
    exact ⟨line, hline, hvalue, by rw [hleft, ← hus]; rfl⟩
  | some text =>
    rw [hcomment] at hts hequation
    obtain ⟨hread, hrest⟩ := readParts_tokens (.inr ⟨text, rfl⟩) Equation.ne_comment_of_mem_sides hts
    obtain ⟨s, us, hafter, hus⟩ := Located.exists_of_map_eq_cons hrest
    obtain ⟨s', vs, rfl, hvs⟩ := Located.exists_of_map_eq_cons hus
    have htaken : takeComment (readParts ts).2 = (some text, ⟨.lineBreak, s'⟩ :: vs) := by
      rw [hafter]
      rfl
    obtain ⟨line, hline, hvalue, hleft⟩ := constraint_of_ofParts stop start
      (hread ▸ hne) (by rw [hread, htaken]; exact hequation) (by rw [htaken])
    exact ⟨line, hline, hvalue, by rw [hleft, ← hvs]; rfl⟩

/-! ### Declarations -/

omit [Scalar α] [Numeral α] in
/-- The comment on a line goes to the item that leaves it. -/
theorem withTrailing_tokens {start : ℕ} {item : Parsed α (Item α)} {printed : Item α}
    {trailing : Option String} {follow : List (Option (Token α))}
    (hitem : item.value.bare = printed.bare)
    (hrest : item.rest.map (·.value) = (trailing.map Token.comment).toList ++ .lineBreak :: rest) :
    (withTrailing start item follow).declaration.value.bare =
        (⟨printed, trailing⟩ : Declaration α).bare ∧
      (withTrailing start item follow).rest.map (·.value) = .lineBreak :: rest := by
  obtain ⟨value, e, after⟩ := item
  cases trailing with
  | none =>
    obtain ⟨s, us, rfl, hus⟩ := Located.exists_of_map_eq_cons hrest
    exact ⟨congrArg₂ Declaration.mk hitem rfl, hrest⟩
  | some text =>
    obtain ⟨s, us, rfl, hus⟩ := Located.exists_of_map_eq_cons hrest
    exact ⟨congrArg₂ Declaration.mk hitem rfl, hus⟩

/-- **The tokens of a sound declaration** read back. -/
theorem declaration_tokens {d : Declaration α} (hd : d.Sound h)
    (hts : ts.map (·.value) = d.tokens ++ .lineBreak :: rest) :
    ∃ line, declaration stop ts = .ok line ∧ line.declaration.value.bare = d.bare ∧
      line.rest.map (·.value) = .lineBreak :: rest := by
  obtain ⟨item, trailing⟩ := d
  obtain ⟨hitem, -, hlast⟩ := hd
  rw [Declaration.tokens, List.append_assoc] at hts
  cases item with
  | boxStyle n fields =>
    obtain ⟨s, us, rfl, hus⟩ := Located.exists_of_map_eq_cons hts
    obtain ⟨p, hp, hname, hafter⟩ := name_tokens stop hus
    obtain ⟨q, hq, hvalue, hrest⟩ := block_tokens stop hitem.2 hafter
    have hline : declaration stop (⟨.boxStyle, s⟩ :: us) = .ok (withTrailing s.start
        ⟨.boxStyle p.value q.value, q.stop, q.rest⟩ afterDeclaration) := by
      simp only [declaration, hp, hq, bind, Except.bind]
      rfl
    exact ⟨_, hline, withTrailing_tokens
      (congrArg₂ Item.boxStyle (Located.bare_eq hname) (Located.map_bare_eq hvalue)) hrest⟩
  | box n fields =>
    obtain ⟨s, us, rfl, hus⟩ := Located.exists_of_map_eq_cons hts
    obtain ⟨p, hp, hname, hafter⟩ := name_tokens stop hus
    split at hafter
    · -- what follows the name of a bare box is no brace
      rename_i hempty
      obtain rfl := List.isEmpty_iff.1 hempty
      have hbrace : ∀ s' us', p.rest ≠ ⟨.braceOpen, s'⟩ :: us' := by
        intro s' us' heq
        rw [heq] at hafter
        cases trailing <;> simp at hafter
      have hline : declaration stop (⟨.box, s⟩ :: us) = .ok (withTrailing s.start
          ⟨.box p.value [], p.stop, p.rest⟩ (some .braceOpen :: afterDeclaration)) := by
        simp only [declaration, hp, bind, Except.bind]
        rfl
      exact ⟨_, hline, withTrailing_tokens
        (congrArg₂ Item.box (Located.bare_eq hname) rfl) hafter⟩
    · obtain ⟨q, hq, hvalue, hrest⟩ := block_tokens stop hitem.2 hafter
      obtain ⟨more, hmore⟩ := exists_blockTokens_eq_cons fields
      rw [hmore] at hafter
      obtain ⟨s', vs, heq, hvs⟩ := Located.exists_of_map_eq_cons hafter
      have hline : declaration stop (⟨.box, s⟩ :: us) = .ok (withTrailing s.start
          ⟨.box p.value q.value, q.stop, q.rest⟩ afterDeclaration) := by
        simp only [declaration, hp, bind, Except.bind]
        rw [heq] at hq ⊢
        simp only [hq]
        rfl
      exact ⟨_, hline, withTrailing_tokens
        (congrArg₂ Item.box (Located.bare_eq hname) (Located.map_bare_eq hvalue)) hrest⟩
  | connect source target fields =>
    obtain ⟨s, us, rfl, hus⟩ := Located.exists_of_map_eq_cons hts
    obtain ⟨p, hp, hsource, hafter⟩ := name_tokens stop hus
    obtain ⟨r, hr, htarget, hafter⟩ := name_tokens stop hafter
    obtain ⟨q, hq, hvalue, hrest⟩ := block_tokens stop hitem.2.2 hafter
    have hline : declaration stop (⟨.connect, s⟩ :: us) = .ok (withTrailing s.start
        ⟨.connect p.value r.value q.value, q.stop, q.rest⟩ afterDeclaration) := by
      simp only [declaration, hp, hr, hq, bind, Except.bind]
      rfl
    refine ⟨_, hline, withTrailing_tokens ?_ hrest⟩
    simp only [Item.bare, Located.bare_eq hsource, Located.bare_eq htarget,
      Located.map_bare_eq hvalue]
  | constrain e =>
    obtain rfl := hlast trivial
    obtain ⟨s, us, rfl, hus⟩ := Located.exists_of_map_eq_cons hts
    obtain ⟨line, hline, hvalue, hrest⟩ := constraint_tokens stop s.start hitem hus
    exact ⟨line, hline, congrArg Declaration.bare hvalue, hrest⟩
  | comment text =>
    obtain rfl := hlast trivial
    obtain ⟨s, us, rfl, hus⟩ := Located.exists_of_map_eq_cons hts
    exact ⟨_, rfl, rfl, hus⟩

omit [Scalar α] [Numeral α] in
theorem skipLineBreaks_cons {t : Located (Token α)} (ht : t.value ≠ .lineBreak) :
    skipLineBreaks (t :: ts) = t :: ts := by
  obtain ⟨t, s⟩ := t
  rw [skipLineBreaks]
  rintro us s' heq
  exact ht (congrArg Located.value (List.cons.inj heq).1)

omit [Numeral α] in
/-- A declaration, and what becomes of the tokens after it. -/
theorem declarations_of_declaration {t : Located (Token α)} {line : Line α}
    (ht : t.value ≠ .lineBreak) (hline : declaration stop (t :: ts) = .ok line) :
    declarations stop (t :: ts) = match line.rest with
      | [] => .ok [line.declaration]
      | ⟨.lineBreak, _⟩ :: rest => (declarations stop rest).map (line.declaration :: ·)
      | rest => .error (unexpected stop line.follow rest) := by
  rw [declarations]
  have hskip : skipLineBreaks (t :: ts) = t :: ts := skipLineBreaks_cons ht
  rw [if_neg (by rw [hskip]; simp)]
  split
  · rename_i error herror
    rw [hskip, hline] at herror
    simp at herror
  · rename_i line' hline'
    rw [hskip] at hline'
    obtain rfl := Except.ok.inj (hline'.symm.trans hline)
    split
    · rename_i hnil
      rw [hnil]
    · rename_i heq
      rw [heq]
    · rename_i hnil hbreak
      split
      · rename_i hrest
        exact absurd hrest hnil
      · rename_i s us hrest
        exact absurd hrest (hbreak s us)
      · rfl

omit [Numeral α] in
/-- A declaration and the lines after it. -/
theorem declarations_cons {t : Located (Token α)} {line : Line α} {s : Span} {us : Tokens α}
    {ds : List (Located (Declaration α))} (ht : t.value ≠ .lineBreak)
    (hline : declaration stop (t :: ts) = .ok line) (hrest : line.rest = ⟨.lineBreak, s⟩ :: us)
    (hds : declarations stop us = .ok ds) :
    declarations stop (t :: ts) = .ok (line.declaration :: ds) := by
  rw [declarations_of_declaration stop ht hline, hrest]
  exact congrArg (Except.map (line.declaration :: ·)) hds

/-- **The tokens of sound declarations** read back. -/
theorem declarations_tokens {ds : List (Located (Declaration α))} (hds : ∀ d ∈ ds, d.value.Sound h)
    (hts : ts.map (·.value) = ds.flatMap fun d => d.value.tokens ++ [.lineBreak]) :
    ∃ ds', declarations stop ts = .ok ds' ∧
      ds'.map (fun d => d.value.bare) = ds.map (fun d => d.value.bare) := by
  induction ds generalizing ts with
  | nil =>
    obtain rfl := List.map_eq_nil_iff.1 hts
    refine ⟨[], ?_, rfl⟩
    rw [declarations]
    rfl
  | cons d ds ih =>
    obtain ⟨hd, hrest⟩ := List.forall_mem_cons.1 hds
    rw [List.flatMap_cons, List.append_assoc] at hts
    obtain ⟨line, hline, hvalue, hafter⟩ := declaration_tokens stop hd hts
    obtain ⟨s, us, heq, hus⟩ := Located.exists_of_map_eq_cons hafter
    obtain ⟨ds', hds', hmap⟩ := ih hrest hus
    -- the first token is no line break, so nothing is skipped before the declaration
    obtain ⟨t, more, htokens, ht⟩ := d.value.exists_tokens_eq_cons
    rw [htokens] at hts
    obtain ⟨s', vs, rfl, hvs⟩ := Located.exists_of_map_eq_cons hts
    exact ⟨_, declarations_cons stop ht hline heq hds', congrArg₂ List.cons hvalue hmap⟩

end Parsing

end Schematic
