import Schematic.Proofs.Rereading
import Schematic.Source.Print

/-!
# Printed text

The text that a sound document is printed as spells the tokens it is printed with. Every
token is followed by a blank, a line break or a symbol that keeps it from growing, and a
comment always by the end of its line.

* `Spells.name`, `Spells.number` and so on: one token before a text.
* `Field.spells_text`, `Equation.spells_text`, `Declaration.spells_text`: the text of a part
  of a document before the end of its line.
* `Document.spells_text`: the text of a document.
-/

namespace Schematic

variable {α : Type} [Numeral α] {rest : List Char} {ts : List (Token α)}

/-! ### One token before a text -/

theorem Parted.line : Parted ('\n' :: rest) := ⟨_, _, rfl, .inr rfl⟩

theorem Parted.blank : Parted (' ' :: rest) := ⟨_, _, rfl, .inl rfl⟩

/-- What neither a blank nor a line break belongs to ends before either. -/
theorem Parted.stops {p : Char → Bool} (h : Parted rest) (hblank : p ' ' = false)
    (hline : p '\n' = false) : Stops p rest := by
  obtain ⟨c, after, rfl, rfl | rfl⟩ := h
  · exact stops_cons.2 hblank
  · exact stops_cons.2 hline

theorem Parted.stops_name (h : Parted rest) : Stops Lexeme.isNamePart rest :=
  h.stops (by decide) (by decide)

theorem Parted.stops_number (h : Parted rest) : Stops Lexeme.isNumberPart rest :=
  h.stops (by decide) (by decide)

theorem Parted.stops_color (h : Parted rest) : Stops Char.isAlphanum rest :=
  h.stops (by decide) (by decide)

theorem isWord_of_mem_keywords : ∀ w ∈ keywords, IsWord w.toList := by
  simp only [keywords, List.forall_mem_cons, List.not_mem_nil, false_imp_iff, implies_true, and_true]
  refine ⟨⟨?_, ?_, ?_⟩, ⟨?_, ?_, ?_⟩, ⟨?_, ?_, ?_⟩, ⟨?_, ?_, ?_⟩⟩
  all_goals simp
  all_goals decide

theorem IsWord.ne_nil {w : List Char} (hw : IsWord w) : w ≠ [] := by
  rintro rfl
  simpa using hw.start

namespace Spells

/-- A word before a text. -/
theorem word {w : String} (hw : IsWord w.toList) (hrest : Stops Lexeme.isNamePart rest)
    (hs : Spells rest ts) : Spells (w.toList ++ rest) (.ofWord w :: ts) := by
  have hhead := Lexeme.atHead?_word (α := α) hw hrest
  rw [String.ofList_toList] at hhead
  exact hs.cons hw.ne_nil hhead

/-- **A name** before a text. -/
theorem name {text : String} (hname : IsName text) (hrest : Stops Lexeme.isNamePart rest)
    (hs : Spells rest ts) : Spells (text.toList ++ rest) (.name text :: ts) := by
  have hword := hs.word hname.word hrest
  rwa [Token.ofWord_eq_name hname.notKeyword] at hword

/-- A symbol that no token is longer than, before a text. -/
theorem symbol {c : Char} {t : Token α}
    (hc : (c, t) ∈ [(':', .colon), ('.', .dot), ('{', .braceOpen), ('}', .braceClose),
      ('\n', .lineBreak)]) (hs : Spells rest ts) : Spells (c :: rest) (t :: ts) := by
  refine hs.cons (w := [c]) (List.cons_ne_nil _ _) ?_
  simp only [List.mem_cons, Prod.mk.injEq, List.not_mem_nil, or_false] at hc
  rcases hc with ⟨rfl, rfl⟩ | ⟨rfl, rfl⟩ | ⟨rfl, rfl⟩ | ⟨rfl, rfl⟩ | ⟨rfl, rfl⟩ <;> rfl

theorem lineBreak (hs : Spells rest ts) : Spells ('\n' :: rest) (.lineBreak :: ts) :=
  hs.symbol (by simp)

/-- **A comment** at the end of its line. -/
theorem comment {text : String} (htext : '\n' ∉ text.toList) (hs : Spells ('\n' :: rest) ts) :
    Spells ((commentText text).toList ++ '\n' :: rest) (.comment text :: ts) := by
  have hstop : Stops (· ≠ '\n') ('\n' :: rest) := stops_cons.2 (by simp)
  have hhead := Lexeme.atHead?_comment (α := α) htext hstop
  rw [String.ofList_toList] at hhead
  have hcons := hs.cons (List.cons_ne_nil _ _) hhead
  simpa [commentText] using hcons

/-- **A quoted text** before a text. -/
theorem quoted (text : String) (hs : Spells rest ts) :
    Spells ((Text.quote text).toList ++ rest) (.quoted text :: ts) := by
  refine hs.cons ?_ (Lexeme.atHead?_quoted text rest)
  simp [Text.quote]

variable [Scalar α] {h : Doubles α}

/-- **A number** before a text. -/
theorem number {x : α} (hx : h.finite x) (hrest : Stops Lexeme.isNumberPart rest)
    (hs : Spells rest ts) : Spells ((Numeral.plain x).toList ++ rest) (.number x :: ts) := by
  obtain ⟨negative, digits, fraction, hne, hall, hplain, hvalue⟩ := h.plain x hx
  have hhead := Lexeme.atHead?_number (α := α) negative hne hall hrest
  rw [hvalue] at hhead
  rw [hplain]
  refine hs.cons ?_ hhead
  simp [hne]

/-- **A colour of bytes** before a text. -/
theorem color (h : Doubles α) {c : Color α} (hc : c.OfBytes) (hrest : Stops Char.isAlphanum rest)
    (hs : Spells rest ts) : Spells (c.text.toList ++ rest) (.hex c.text :: ts) := by
  obtain ⟨r, g, b, a, hr, hg, hb, ha, rfl⟩ := hc
  have hbytes := h.bytes_ofBytes hr hg hb ha
  have hchar : ∀ n < 16, (Color.hexChar true n).isAlphanum = true := by decide
  have hall : ∀ c ∈ [r, g, b, a].flatMap (Color.hexByte true), c.isAlphanum = true := by
    intro c hc
    obtain ⟨n, hn, hc⟩ := List.mem_flatMap.1 hc
    have hlt : n < 256 := by
      simp only [List.mem_cons, List.not_mem_nil, or_false] at hn
      omega
    simp only [Color.hexByte, List.mem_cons, List.not_mem_nil, or_false] at hc
    rcases hc with rfl | rfl
    · exact hchar _ (by omega)
    · exact hchar _ (Nat.mod_lt _ (by decide))
  have hhead := Lexeme.atHead?_hex (α := α) (by simp [Color.hexByte]) hall hrest
  rw [Color.text, hbytes, String.toList_ofList]
  exact hs.cons (List.cons_ne_nil _ _) hhead

end Spells

/-! ### Fields and blocks -/

variable [Scalar α] {h : Doubles α}

theorem FieldKey.isName_text (key : FieldKey) : IsName key.text := by
  refine ⟨⟨?_, ?_, ?_⟩, by cases key <;> decide⟩ <;> cases key <;> simp [FieldKey.text]
  all_goals decide

omit [Scalar α] in
/-- The name of a field and its colon before the value. -/
theorem FieldKey.spells_text (key : FieldKey) {value : String}
    (hs : Spells (value.toList ++ rest) ts) :
    Spells ((key.text ++ ": " ++ value).toList ++ rest) (.name key.text :: .colon :: ts) := by
  have hcolon : Spells (':' :: ' ' :: (value.toList ++ rest)) (.colon :: ts) :=
    hs.blank.symbol (by simp)
  have hname := hcolon.name key.isName_text (stops_cons.2 (by decide))
  simpa using hname

/-- **The text of a field** before the end of its line. -/
theorem Field.spells_text {f : Field α} (hf : f.Sound h) (hs : Spells ('\n' :: rest) ts) :
    Spells (f.text.toList ++ '\n' :: rest) (f.tokens ++ ts) := by
  cases f with
  | background c =>
    exact FieldKey.spells_text .background (hs.color h hf Parted.line.stops_color)
  | textColor c =>
    exact FieldKey.spells_text .textColor (hs.color h hf Parted.line.stops_color)
  | lineWidth x =>
    exact FieldKey.spells_text .lineWidth (hs.number hf Parted.line.stops_number)
  | label text => exact FieldKey.spells_text .label (hs.quoted text)
  | sourceHead name =>
    exact FieldKey.spells_text .sourceHead (hs.name hf Parted.line.stops_name)
  | targetHead name =>
    exact FieldKey.spells_text .targetHead (hs.name hf Parted.line.stops_name)
  | style name =>
    exact FieldKey.spells_text .style (hs.name hf Parted.line.stops_name)
  | comment text => exact hs.comment hf

/-- The text of fields, each on its line, before the brace that closes their block. -/
theorem spells_entries {fields : List (Located (Field α))} (hfields : ∀ f ∈ fields, f.value.Sound h)
    (hs : Spells rest ts) :
    Spells ((String.join (fields.map fun f => "    " ++ f.value.text ++ "\n")).toList ++ '}' :: rest)
      (entryTokens fields ++ .braceClose :: ts) := by
  induction fields with
  | nil => exact hs.symbol (by simp)
  | cons f fields ih =>
    obtain ⟨hf, hrest⟩ := List.forall_mem_cons.1 hfields
    -- read from the end: the other fields, the line break, the field, its four blanks
    have hfield := Field.spells_text hf (ih hrest).lineBreak
    have hindented := hfield.blank.blank.blank.blank
    simpa [entryTokens] using hindented

/-- **The text of a block** before a text. -/
theorem spells_blockText {fields : List (Located (Field α))}
    (hfields : ∀ f ∈ fields, f.value.Sound h) (hs : Spells rest ts) :
    Spells ((blockText fields).toList ++ rest) (blockTokens fields ++ ts) := by
  unfold blockText blockTokens
  split
  · have hclose : Spells ('}' :: rest) (.braceClose :: ts) := hs.symbol (by simp)
    have hopen : Spells ('{' :: '}' :: rest) (.braceOpen :: .braceClose :: ts) :=
      hclose.symbol (by simp)
    exact hopen
  · have hopen : Spells ('{' :: '\n' ::
        ((String.join (fields.map fun f => "    " ++ f.value.text ++ "\n")).toList ++ '}' :: rest))
        (.braceOpen :: .lineBreak :: (entryTokens fields ++ .braceClose :: ts)) :=
      (spells_entries hfields hs).lineBreak.symbol (by simp)
    simpa using hopen

/-! ### Equations -/

omit [Scalar α] in
/-- The names of a reference with dots between them. -/
theorem Reference.spells_text {head : String} {tail : List String}
    (hnames : ∀ name ∈ head :: tail, IsName name) (hrest : Stops Lexeme.isNamePart rest)
    (hs : Spells rest ts) :
    Spells ((Reference.text ⟨head, tail⟩).toList ++ rest)
      (.name head :: tail.flatMap (fun name => [.dot, .name name]) ++ ts) := by
  induction tail generalizing head with
  | nil =>
    obtain ⟨hhead, -⟩ := List.forall_mem_cons.1 hnames
    exact hs.name hhead hrest
  | cons name tail ih =>
    obtain ⟨hhead, htail⟩ := List.forall_mem_cons.1 hnames
    have hdot : Spells ('.' :: ((Reference.text ⟨name, tail⟩).toList ++ rest))
        (.dot :: (.name name :: tail.flatMap (fun name => [.dot, .name name]) ++ ts)) :=
      (ih htail).symbol (by simp)
    have hname := hdot.name hhead (stops_cons.2 (by decide))
    have htext : Reference.text ⟨head, name :: tail⟩ = head ++ "." ++ Reference.text ⟨name, tail⟩ :=
      String.intercalate_cons_cons
    simpa [htext] using hname

/-- A part that is no comment before a blank or a line break. -/
theorem Part.spells_text {p : Part α} (hp : p.Sound h) (hcomment : ∀ text, p ≠ .comment text)
    (hrest : Parted rest) (hs : Spells rest ts) :
    Spells (p.text.toList ++ rest) (p.tokens ++ ts) := by
  rcases p with (x | op | r) | r | text
  · exact hs.number hp hrest.stops_number
  · exact hs.cons (by cases op <;> simp [Part.text, Term.text, Operation.text])
      (Lexeme.atHead?_operation op hrest)
  · exact Reference.spells_text hp hrest.stops_name hs
  · exact hs.cons (by cases r <;> simp [Part.text, Relation.text]) (Lexeme.atHead?_relation r hrest)
  · exact absurd rfl (hcomment text)

/-- **The text of parts** before the end of their line. Only the last one can be a comment. -/
theorem spells_listText {parts : List (Part α)} (hne : parts ≠ []) (hparts : ∀ p ∈ parts, p.Sound h)
    (hcomment : ∀ p ∈ parts.dropLast, ∀ text, p ≠ .comment text) (hs : Spells ('\n' :: rest) ts) :
    Spells ((Part.listText parts).toList ++ '\n' :: rest) (parts.flatMap Part.tokens ++ ts) := by
  induction parts with
  | nil => exact absurd rfl hne
  | cons p parts ih =>
    obtain ⟨hp, hrest⟩ := List.forall_mem_cons.1 hparts
    cases parts with
    | nil =>
      have hlast : Spells (p.text.toList ++ '\n' :: rest) (p.tokens ++ ts) := by
        -- the line ends after the last part, so it may be a comment
        by_cases hnone : ∀ text, p ≠ .comment text
        · exact Part.spells_text hp hnone Parted.line hs
        · push Not at hnone
          obtain ⟨text, rfl⟩ := hnone
          exact hs.comment hp
      simpa [Part.listText] using hlast
    | cons q parts =>
      obtain ⟨hnone, hlast⟩ := List.forall_mem_cons.1 hcomment
      have hmore := ih (List.cons_ne_nil _ _) hrest hlast
      have hall := Part.spells_text hp hnone Parted.blank hmore.blank
      have htext : Part.listText (p :: q :: parts) = p.text ++ " " ++ Part.listText (q :: parts) :=
        String.intercalate_cons_cons
      simpa [htext] using hall

/-- **The text of a sound equation** before the end of its line. -/
theorem Equation.spells_text {e : Equation α} (he : e.Sound h) (hs : Spells ('\n' :: rest) ts) :
    Spells (e.text.toList ++ '\n' :: rest) (e.parts.flatMap Part.tokens ++ ts) := by
  refine spells_listText ?_ he.parts ?_ hs
  · simp [Equation.parts]
  · rintro p hp text rfl
    cases hcomment : e.comment with
    | none =>
      have hmem := List.mem_of_mem_dropLast hp
      simp [Equation.parts, hcomment] at hmem
    | some last =>
      have hparts : e.parts = e.sides ++ [.comment last] := by
        simp [Equation.parts, Equation.sides, hcomment]
      rw [hparts, List.dropLast_concat] at hp
      exact Equation.ne_comment_of_mem_sides _ hp text rfl

/-! ### Declarations -/

omit [Scalar α] in
/-- A keyword and the blank after it. -/
theorem spells_keyword {w : String} (hw : w ∈ keywords) (hs : Spells rest ts) :
    Spells (w.toList ++ ' ' :: rest) (.ofWord w :: ts) :=
  hs.blank.word (isWord_of_mem_keywords w hw) Parted.blank.stops_name

/-- **The text of an item** before a text that begins with a blank or a line break. -/
theorem Item.spells_text {item : Item α} (hitem : item.Sound h) (hs : Spells rest ts)
    (hrest : Parted rest) (hlast : item.EndsLine → ∃ after, rest = '\n' :: after) :
    Spells (item.text.toList ++ rest) (item.tokens ++ ts) := by
  cases item with
  | boxStyle n fields =>
    obtain ⟨hn, hfields⟩ := hitem
    have hname := (spells_blockText hfields hs).blank.name hn Parted.blank.stops_name
    have hall := spells_keyword (w := "box-style") (by simp [keywords]) hname
    simpa [Item.text, Item.tokens, Token.ofWord] using hall
  | box n fields =>
    obtain ⟨hn, hfields⟩ := hitem
    by_cases hempty : fields.isEmpty = true
    · have hall := spells_keyword (w := "box") (by simp [keywords]) (hs.name hn hrest.stops_name)
      simpa [Item.text, Item.tokens, Token.ofWord, hempty] using hall
    · have hname := (spells_blockText hfields hs).blank.name hn Parted.blank.stops_name
      have hall := spells_keyword (w := "box") (by simp [keywords]) hname
      simpa [Item.text, Item.tokens, Token.ofWord, hempty] using hall
  | connect source target fields =>
    obtain ⟨hsource, htarget, hfields⟩ := hitem
    have hname := (spells_blockText hfields hs).blank.name htarget Parted.blank.stops_name
    have hnames := hname.blank.name hsource Parted.blank.stops_name
    have hall := spells_keyword (w := "connect") (by simp [keywords]) hnames
    simpa [Item.text, Item.tokens, Token.ofWord] using hall
  | constrain e =>
    obtain ⟨after, rfl⟩ := hlast trivial
    have hall := spells_keyword (w := "constrain") (by simp [keywords])
      (Equation.spells_text hitem hs)
    simpa [Item.text, Item.tokens, Token.ofWord] using hall
  | comment text =>
    obtain ⟨after, rfl⟩ := hlast trivial
    exact hs.comment hitem

/-- **The text of a declaration** before the end of its line. -/
theorem Declaration.spells_text {d : Declaration α} (hd : d.Sound h)
    (hs : Spells ('\n' :: rest) ts) :
    Spells (d.text.toList ++ '\n' :: rest) (d.tokens ++ ts) := by
  obtain ⟨item, trailing⟩ := d
  obtain ⟨hitem, htrailing, hlast⟩ := hd
  -- what follows the item is the end of its line, or a blank and a comment
  cases trailing with
  | none =>
    have hall := Item.spells_text hitem hs Parted.line fun _ => ⟨rest, rfl⟩
    simpa [Declaration.text, Declaration.tokens] using hall
  | some text =>
    have hcomment := hs.comment (htrailing text rfl)
    have hall := Item.spells_text hitem hcomment.blank Parted.blank fun hends => by
      simpa using hlast hends
    simpa [Declaration.text, Declaration.tokens] using hall

/-- **The text of a sound document** spells its tokens. -/
theorem Document.spells_text {d : Document α} (hd : ∀ l ∈ d.declarations, l.value.Sound h) :
    Spells d.text.toList d.tokens := by
  obtain ⟨declarations⟩ := d
  induction declarations with
  | nil => exact spells_nil
  | cons l declarations ih =>
    obtain ⟨hl, hrest⟩ := List.forall_mem_cons.1 hd
    have hall := Declaration.spells_text hl (ih hrest).lineBreak
    simpa [Document.text, Document.tokens] using hall

end Schematic
