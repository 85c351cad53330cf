import Schematic.Source.Document

/-!
# Reading documents

A document is read from its tokens, from left to right and with no way back: the
next token always settles what follows. The first token that fits nowhere is the
error, with what could have stood in its place.

* `parse`: the document of a source, or its errors.
* `SyntaxError`: where reading stopped, and why.
* `declaration_length`: every declaration takes at least one token.
-/

namespace Schematic

/-- Why reading stopped. A token that is missing stands for the end of the source. -/
inductive SyntaxFault (α : Type) where
  | stray (text : String)
  | unexpected (found : Option (Token α)) (expected : List (Option (Token α)))
  | field (fault : FieldFault)
  | equation (error : MalformedEquation α)
deriving DecidableEq, Repr

/-- Where reading stopped, and why. -/
structure SyntaxError (α : Type) where
  span : Span
  fault : SyntaxFault α
deriving DecidableEq, Repr

namespace SyntaxError

variable {α : Type} [Numeral α]

/-- A token as a message names it; without one, the end of the source. -/
def describe : Option (Token α) → String
  | some token => token.description
  | none => "end of input"

/-- The error in words. -/
def message (e : SyntaxError α) : String :=
  match e.fault with
  | .stray text => "Unrecognized input '" ++ text ++ "'"
  | .unexpected found _ => "Unexpected " ++ describe found
  | .field fault => fault.message
  | .equation error => error.message

/-- What could have stood where reading stopped. -/
def expected (e : SyntaxError α) : List String :=
  match e.fault with
  | .unexpected _ expected => expected.map describe
  | _ => []

/-- The error in words, with its place. -/
def text (e : SyntaxError α) : String := "Parse error at " ++ e.span.text ++ ": " ++ e.message

end SyntaxError

namespace Parsing

variable {α : Type}

/-- Tokens that are still to be read. -/
abbrev Tokens (α : Type) := List (Located (Token α))

/-- Something read, the byte it ended at, and the tokens after it. -/
structure Parsed (α β : Type) where
  value : β
  stop : Nat
  rest : Tokens α

/-- The error at the first of the remaining tokens. The source ends at byte `stop`. -/
def unexpected (stop : Nat) (expected : List (Option (Token α))) : Tokens α → SyntaxError α
  | [] => ⟨⟨stop, stop⟩, .unexpected none expected⟩
  | t :: _ => ⟨t.span, .unexpected (some t.value) expected⟩

/-- The tokens without the line breaks before them. -/
def skipLineBreaks : Tokens α → Tokens α
  | ⟨.lineBreak, _⟩ :: rest => skipLineBreaks rest
  | rest => rest

/-- A name. -/
def name (stop : Nat) : Tokens α → Except (SyntaxError α) (Parsed α (Located String))
  | ⟨.name text, s⟩ :: rest => .ok ⟨⟨text, s⟩, s.stop, rest⟩
  | rest => .error (unexpected stop [] rest)

/-- The entries of a block up to its closing brace. Entries are separated by
semicolons or line breaks; `ready` says that the next one may follow at once. -/
def entries [Scalar α] (stop : Nat) :
    (ready : Bool) → Tokens α → Except (SyntaxError α) (Parsed α (List (Located (Field α))))
  | _, ⟨.semicolon, _⟩ :: rest => entries stop true rest
  | _, ⟨.lineBreak, _⟩ :: rest => entries stop true rest
  | _, ⟨.braceClose, s⟩ :: rest => .ok ⟨[], s.stop, rest⟩
  | true, ⟨.comment text, s⟩ :: rest => do
    let after ← entries stop false rest
    return { after with value := ⟨.comment text, s⟩ :: after.value }
  | true, ⟨.name key, s⟩ :: ⟨.colon, _⟩ :: ⟨token, e⟩ :: rest =>
    match RawValue.ofToken? token with
    | none => .error (unexpected stop [] (⟨token, e⟩ :: rest))
    | some value =>
      match Field.read key value with
      | .error fault => .error ⟨⟨s.start, e.stop⟩, .field fault⟩
      | .ok field => do
        let after ← entries stop false rest
        return { after with value := ⟨field, ⟨s.start, e.stop⟩⟩ :: after.value }
  | true, [⟨.name _, _⟩, ⟨.colon, _⟩] => .error (unexpected stop [] [])
  | true, ⟨.name _, _⟩ :: rest => .error (unexpected stop [some .colon] rest)
  | _, rest =>
    .error (unexpected stop [some .semicolon, some .lineBreak, some .braceClose] rest)

/-- A block in braces. -/
def block [Scalar α] (stop : Nat) :
    Tokens α → Except (SyntaxError α) (Parsed α (List (Located (Field α))))
  | ⟨.braceOpen, _⟩ :: rest => entries stop true rest
  | rest => .error (unexpected stop [some .braceOpen] rest)

/-- What may follow a whole declaration. -/
def afterDeclaration : List (Option (Token α)) := [some .lineBreak, none]

/-- What may begin a line. -/
def lineStart : List (Option (Token α)) :=
  [some .lineBreak, some .boxStyle, some .box, some .connect, some .constrain, none]

/-- A declaration that was read, and what else could have followed it. -/
structure Line (α : Type) where
  declaration : Located (Declaration α)
  rest : Tokens α
  follow : List (Option (Token α))

/-- The item read from byte `start` on, with the comment after it. -/
def withTrailing (start : Nat) (item : Parsed α (Item α)) (follow : List (Option (Token α))) :
    Line α :=
  match item.rest with
  | ⟨.comment text, s⟩ :: rest => ⟨⟨⟨item.value, some text⟩, ⟨start, s.stop⟩⟩, rest, follow⟩
  | rest => ⟨⟨⟨item.value, none⟩, ⟨start, item.stop⟩⟩, rest, follow⟩

/-- The byte at which the last of the tokens before `rest` ends. -/
def stopBefore (tokens rest : Tokens α) : Nat :=
  match (tokens.take (tokens.length - rest.length)).getLast? with
  | some t => t.span.stop
  | none => 0

/-- A comment, if there is one, and the tokens after it. -/
def takeComment : Tokens α → Option String × Tokens α
  | ⟨.comment text, _⟩ :: rest => (some text, rest)
  | rest => (none, rest)

/-- A constraint, after its keyword. -/
def constraint [Scalar α] (start stop : Nat) (tokens : Tokens α) :
    Except (SyntaxError α) (Line α) :=
  let (parts, rest) := readParts tokens
  if parts.isEmpty then .error (unexpected stop [] tokens)
  else
    let (comment, after) := takeComment rest
    let span : Span := ⟨start, stopBefore tokens after⟩
    match Equation.ofParts (parts ++ (comment.map Part.comment).toList) with
    | .error error => .error ⟨span, .equation error⟩
    | .ok equation =>
      let follow := if endsWithReference parts then some .dot :: afterDeclaration else afterDeclaration
      let line : Line α := ⟨⟨⟨.constrain equation, none⟩, span⟩, after, follow⟩
      match after with
      | ⟨.dot, _⟩ :: missing =>
        if comment.isNone && endsWithReference parts then .error (unexpected stop [] missing)
        else .ok line
      | _ => .ok line

/-- **A declaration.** A box need not have a block; a connector must. -/
def declaration [Scalar α] (stop : Nat) : Tokens α → Except (SyntaxError α) (Line α)
  | ⟨.boxStyle, s⟩ :: rest => do
    let name ← name stop rest
    let fields ← block stop name.rest
    return withTrailing s.start ⟨.boxStyle name.value fields.value, fields.stop, fields.rest⟩
      afterDeclaration
  | ⟨.box, s⟩ :: rest => do
    let name ← name stop rest
    match name.rest with
    | ⟨.braceOpen, _⟩ :: _ => do
      let fields ← block stop name.rest
      return withTrailing s.start ⟨.box name.value fields.value, fields.stop, fields.rest⟩
        afterDeclaration
    | rest =>
      return withTrailing s.start ⟨.box name.value [], name.stop, rest⟩
        (some .braceOpen :: afterDeclaration)
  | ⟨.connect, s⟩ :: rest => do
    let source ← name stop rest
    let target ← name stop source.rest
    let fields ← block stop target.rest
    return withTrailing s.start
      ⟨.connect source.value target.value fields.value, fields.stop, fields.rest⟩ afterDeclaration
  | ⟨.constrain, s⟩ :: rest => constraint s.start stop rest
  | ⟨.comment text, s⟩ :: rest => .ok ⟨⟨⟨.comment text, none⟩, s⟩, rest, afterDeclaration⟩
  | rest => .error (unexpected stop lineStart rest)

theorem name_length {stop : Nat} {ts : Tokens α} {p : Parsed α (Located String)}
    (h : name stop ts = .ok p) : p.rest.length < ts.length := by
  unfold name at h
  split at h
  · injection h with h
    subst h
    simp
  · simp at h

theorem entries_length [Scalar α] {stop : Nat} {ready : Bool} {ts : Tokens α}
    {p : Parsed α (List (Located (Field α)))} (h : entries stop ready ts = .ok p) :
    p.rest.length < ts.length := by
  fun_induction entries stop ready ts generalizing p with
  | case1 ready s rest ih => have := ih h; simp; omega
  | case2 ready s rest ih => have := ih h; simp; omega
  | case3 ready s rest => injection h with h; subst h; simp
  | case4 text s rest ih =>
    cases hr : entries stop false rest with
    | error e => simp [hr, bind, Except.bind] at h
    | ok q =>
      have := ih hr
      simp only [hr, bind, Except.bind, pure, Except.pure, Except.ok.injEq] at h
      subst h
      simp
      omega
  | case5 => simp at h
  | case6 => simp at h
  | case7 key s sc token e rest value hv field hf ih =>
    cases hr : entries stop false rest with
    | error e => simp [hr, bind, Except.bind] at h
    | ok q =>
      have := ih hr
      simp only [hr, bind, Except.bind, pure, Except.pure, Except.ok.injEq] at h
      subst h
      simp
      omega
  | case8 => simp at h
  | case9 => simp at h
  | case10 => simp at h

theorem block_length [Scalar α] {stop : Nat} {ts : Tokens α}
    {p : Parsed α (List (Located (Field α)))} (h : block stop ts = .ok p) :
    p.rest.length < ts.length := by
  unfold block at h
  split at h
  · have := entries_length h
    simp
    omega
  · simp at h

theorem withTrailing_length (start : Nat) (item : Parsed α (Item α))
    (follow : List (Option (Token α))) :
    (withTrailing start item follow).rest.length ≤ item.rest.length := by
  unfold withTrailing
  split <;> simp_all

theorem takeComment_length (ts : Tokens α) : (takeComment ts).2.length ≤ ts.length := by
  unfold takeComment
  split <;> simp

theorem constraint_length [Scalar α] {start stop : Nat} {ts : Tokens α} {line : Line α}
    (h : constraint start stop ts = .ok line) : line.rest.length ≤ ts.length := by
  have hp := readParts_length ts
  have hc := takeComment_length (readParts ts).2
  have hl : line.rest = (takeComment (readParts ts).2).2 := by
    unfold constraint at h
    simp only at h
    split at h
    · simp at h
    · split at h
      · simp at h
      · split at h
        · split at h
          · simp at h
          · injection h with h
            subst h
            rfl
        · injection h with h
          subst h
          rfl
  rw [hl]
  omega

/-- Every declaration takes at least one token. -/
theorem declaration_length [Scalar α] {stop : Nat} {ts : Tokens α} {line : Line α}
    (h : declaration stop ts = .ok line) : line.rest.length < ts.length := by
  unfold declaration at h
  split at h
  · rename_i s rest
    cases hn : name stop rest with
    | error e => simp [hn, bind, Except.bind] at h
    | ok n =>
      cases hb : block stop n.rest with
      | error e => simp [hn, hb, bind, Except.bind] at h
      | ok b =>
        simp only [hn, hb, bind, Except.bind, pure, Except.pure, Except.ok.injEq] at h
        subst h
        have := name_length hn
        have := block_length hb
        have := withTrailing_length s.start
          ⟨.boxStyle n.value b.value, b.stop, b.rest⟩ afterDeclaration
        simp at this ⊢
        omega
  · rename_i s rest
    cases hn : name stop rest with
    | error e => simp [hn, bind, Except.bind] at h
    | ok n =>
      have := name_length hn
      simp only [hn, bind, Except.bind] at h
      split at h
      · cases hb : block stop n.rest with
        | error e => simp [hb] at h
        | ok b =>
          simp only [hb, pure, Except.pure, Except.ok.injEq] at h
          subst h
          have := block_length hb
          have := withTrailing_length s.start
            ⟨.box n.value b.value, b.stop, b.rest⟩ afterDeclaration
          simp at this ⊢
          omega
      · simp only [pure, Except.pure, Except.ok.injEq] at h
        subst h
        have := withTrailing_length s.start
          ⟨.box n.value [], n.stop, n.rest⟩ (some .braceOpen :: afterDeclaration)
        simp at this ⊢
        omega
  · rename_i s rest
    cases hn : name stop rest with
    | error e => simp [hn, bind, Except.bind] at h
    | ok n =>
      cases hm : name stop n.rest with
      | error e => simp [hn, hm, bind, Except.bind] at h
      | ok m =>
        cases hb : block stop m.rest with
        | error e => simp [hn, hm, hb, bind, Except.bind] at h
        | ok b =>
          simp only [hn, hm, hb, bind, Except.bind, pure, Except.pure, Except.ok.injEq] at h
          subst h
          have := name_length hn
          have := name_length hm
          have := block_length hb
          have := withTrailing_length s.start
            ⟨.connect n.value m.value b.value, b.stop, b.rest⟩ afterDeclaration
          simp at this ⊢
          omega
  · have := constraint_length h
    simp
    omega
  · injection h with h
    subst h
    simp
  · simp at h

theorem skipLineBreaks_length (ts : Tokens α) : (skipLineBreaks ts).length ≤ ts.length := by
  fun_induction skipLineBreaks ts with
  | case1 s rest ih => simp; omega
  | case2 => simp

/-- The declarations of a source, one a line. -/
def declarations [Scalar α] (stop : Nat) (tokens : Tokens α) :
    Except (SyntaxError α) (List (Located (Declaration α))) :=
  let start := skipLineBreaks tokens
  if start.isEmpty then .ok []
  else
    match _h : declaration stop start with
    | .error error => .error error
    | .ok line =>
      match _hr : line.rest with
      | [] => .ok [line.declaration]
      | ⟨.lineBreak, _⟩ :: rest => (declarations stop rest).map (line.declaration :: ·)
      | rest => .error (unexpected stop line.follow rest)
termination_by tokens.length
decreasing_by
  have taken := declaration_length _h
  have skipped : start.length ≤ tokens.length := skipLineBreaks_length tokens
  rw [_hr] at taken
  simp at taken
  omega

end Parsing

/-- **Read a source.** Either every piece that is no token is an error, or there is at
most one: the first place where the tokens make up no document. -/
def parse {α : Type} [Scalar α] [Numeral α] (source : String) :
    Except (List (SyntaxError α)) (Document α) :=
  match lex (α := α) source with
  | .error strays => .error (strays.map fun s => ⟨s.span, .stray s.value⟩)
  | .ok tokens =>
    match Parsing.declarations source.utf8ByteSize tokens with
    | .error error => .error [error]
    | .ok declarations => .ok ⟨declarations⟩

end Schematic
