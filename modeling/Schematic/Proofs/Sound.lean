import Schematic.Proofs.Doubles
import Schematic.Proofs.Tiling
import Schematic.Source.Parsing

/-!
# Sound documents

What the documents that are read from sources have in common, and all that printing them
relies on: names are names, colours are colours of bytes, numbers are finite, comments stay
on their line, and an equation is the one that its parts make up.

* `Field.Sound`, `Equation.Sound`, `Declaration.Sound`: the invariant of what is read.
* `Parsing.entries_sound`, `Parsing.constraint_sound`, `Parsing.declaration_sound`: reading
  from sound tokens gives something sound, and leaves sound tokens.
* `parse_sound`: the declarations of a source are sound.
-/

namespace Schematic

variable {α : Type} [Scalar α] [Numeral α]

section Predicates

variable (h : Doubles α)

/-- A token that is sound, and finite if it is a number. -/
def Token.Fit : Token α → Prop
  | .number x => h.finite x
  | t => t.Sound

variable {h} in
theorem Token.Sound.fit {t : Token α} (ht : t.Sound)
    (hfinite : ∀ x, t = .number x → h.finite x) : t.Fit h := by
  cases t with
  | number x => exact hfinite x rfl
  | _ => exact ht

/-- What a field holds. -/
def Field.Sound : Field α → Prop
  | .background c | .textColor c => c.OfBytes
  | .lineWidth x => h.finite x
  | .label _ => True
  | .sourceHead name | .targetHead name | .style name => IsName name
  | .comment text => '\n' ∉ text.toList

/-- What a part of an equation holds. -/
def Part.Sound : Part α → Prop
  | .term (.constant x) => h.finite x
  | .term (.operation _) => True
  | .term (.reference r) => ∀ name ∈ r.head :: r.tail, IsName name
  | .relation _ => True
  | .comment text => '\n' ∉ text.toList

/-- An equation that its own parts make up. -/
structure Equation.Sound (e : Equation α) : Prop where
  assembled : Equation.assemble e.parts = .ok e
  parts : ∀ p ∈ e.parts, p.Sound h

/-- What an item holds. -/
def Item.Sound : Item α → Prop
  | .boxStyle name fields | .box name fields =>
    IsName name.value ∧ ∀ f ∈ fields, f.value.Sound h
  | .connect source target fields =>
    IsName source.value ∧ IsName target.value ∧ ∀ f ∈ fields, f.value.Sound h
  | .constrain e => e.Sound h
  | .comment text => '\n' ∉ text.toList

/-- The items that end with the comment on their line, if there is one. -/
def Item.EndsLine : Item α → Prop
  | .constrain _ | .comment _ => True
  | _ => False

/-- **A sound declaration**: no comment follows an item that has taken it. -/
structure Declaration.Sound (d : Declaration α) : Prop where
  item : d.item.Sound h
  trailing : ∀ text ∈ d.trailing, '\n' ∉ text.toList
  last : d.item.EndsLine → d.trailing = none

end Predicates

/-! ### Equations -/

namespace Equation

omit [Scalar α] [Numeral α] in
theorem splitLeft_eq_ok {parts rest : List (Part α)} {left : List (Term α)} {r : Relation} :
    splitLeft parts = .ok (left, r, rest) ↔ parts = left.map .term ++ .relation r :: rest := by
  fun_induction splitLeft parts generalizing left with
  | case1 => simp
  | case2 text parts => cases left <;> simp
  | case3 r' parts => cases left <;> simp [eq_comm]
  | case4 t parts ih =>
    rw [except_map_eq_ok]
    constructor
    · rintro ⟨⟨left', r', rest'⟩, hsplit, heq⟩
      simp only [Prod.mk.injEq] at heq
      obtain ⟨rfl, rfl, rfl⟩ := heq
      rw [List.map_cons, List.cons_append, ih.1 hsplit]
    · intro heq
      cases left with
      | nil => simp at heq
      | cons t' left =>
        simp only [List.map_cons, List.cons_append, List.cons.injEq, Part.term.injEq] at heq
        obtain ⟨rfl, rfl⟩ := heq
        exact ⟨_, ih.2 rfl, rfl⟩

omit [Scalar α] [Numeral α] in
/-- What follows the comment of a right side is not read. -/
theorem splitRight_eq_ok {parts : List (Part α)} {right : List (Term α)} {comment : Option String}
    (h : splitRight parts = .ok (right, comment)) :
    right.map .term ++ (comment.map .comment).toList <+: parts ∧
      splitRight (right.map (Part.term (α := α)) ++ (comment.map .comment).toList) =
        .ok (right, comment) := by
  fun_induction splitRight parts generalizing right with
  | case1 =>
    simp only [Except.ok.injEq, Prod.mk.injEq] at h
    obtain ⟨rfl, rfl⟩ := h
    exact ⟨List.prefix_rfl, rfl⟩
  | case2 text parts =>
    simp only [Except.ok.injEq, Prod.mk.injEq] at h
    obtain ⟨rfl, rfl⟩ := h
    exact ⟨⟨parts, rfl⟩, rfl⟩
  | case3 => simp at h
  | case4 t parts ih =>
    obtain ⟨⟨right', comment'⟩, hsplit, heq⟩ := except_map_eq_ok.1 h
    simp only [Prod.mk.injEq] at heq
    obtain ⟨rfl, rfl⟩ := heq
    obtain ⟨hinit, hagain⟩ := ih hsplit
    refine ⟨?_, ?_⟩
    · rw [List.map_cons, List.cons_append, List.cons_prefix_cons]
      exact ⟨rfl, hinit⟩
    · rw [List.map_cons, List.cons_append, splitRight, hagain]
      rfl

omit [Numeral α] in
/-- When parts make up an equation. -/
theorem assemble_eq_ok_iff {parts : List (Part α)} {e : Equation α} :
    assemble parts = .ok e ↔ ∃ rest, splitLeft parts = .ok (e.left, e.relation, rest) ∧
      e.left ≠ [] ∧ splitRight rest = .ok (e.right, e.comment) ∧ e.right ≠ [] ∧
        checkSide e.left = .ok () ∧ checkSide e.right = .ok () := by
  constructor
  · intro h
    unfold assemble at h
    obtain ⟨⟨left, r, rest⟩, hsplit, h⟩ := except_bind_eq_ok.1 h
    simp only [throw, throwThe, MonadExceptOf.throw, bind, Except.bind, pure, Except.pure] at h
    split at h
    · simp at h
    rename_i hleft
    cases hright : splitRight rest with
    | error fault => simp [hright] at h
    | ok v =>
      obtain ⟨right, comment⟩ := v
      simp only [hright] at h
      split at h
      · simp at h
      rename_i hright'
      cases hcheck : checkSide left with
      | error fault => simp [hcheck] at h
      | ok _ =>
        cases hcheck' : checkSide right with
        | error fault => simp [hcheck, hcheck'] at h
        | ok _ =>
          simp only [hcheck, hcheck', Except.ok.injEq] at h
          subst h
          exact ⟨rest, hsplit, by simpa using hleft, hright, by simpa using hright', hcheck, hcheck'⟩
  · rintro ⟨rest, hsplit, hne, hright, hne', hcheck, hcheck'⟩
    simp [assemble, hsplit, hright, hcheck, hcheck', hne, hne', bind, Except.bind, pure, Except.pure]

omit [Numeral α] in
/-- **The parts of an equation** begin those that made it up, and make it up again. -/
theorem assemble_parts {parts : List (Part α)} {e : Equation α} (h : assemble parts = .ok e) :
    e.parts <+: parts ∧ assemble e.parts = .ok e := by
  obtain ⟨rest, hleft, hne, hright, hne', hcheck, hcheck'⟩ := assemble_eq_ok_iff.1 h
  obtain ⟨hinit, hagain⟩ := splitRight_eq_ok hright
  have hparts : e.parts = e.left.map .term ++ .relation e.relation ::
      (e.right.map .term ++ (e.comment.map .comment).toList) := by
    simp [Equation.parts]
  refine ⟨?_, assemble_eq_ok_iff.2 ⟨_, splitLeft_eq_ok.2 hparts, hne, hagain, hne', hcheck, hcheck'⟩⟩
  rw [hparts, splitLeft_eq_ok.1 hleft, List.prefix_append_right_inj, List.cons_prefix_cons]
  exact ⟨rfl, hinit⟩

omit [Numeral α] in
theorem ofParts_eq_ok {parts : List (Part α)} {e : Equation α} :
    ofParts parts = .ok e ↔ assemble parts = .ok e := by
  unfold ofParts
  cases assemble parts <;> simp [Except.mapError]

end Equation

/-! ### Fields -/

section Fields

variable (h : Doubles α)

/-- What a raw value holds. -/
def RawValue.Fit : RawValue α → Prop
  | .number x => h.finite x
  | .name text => IsName text
  | _ => True

variable {h}

theorem RawValue.ofToken?_fit {t : Token α} {value : RawValue α} (ht : t.Fit h)
    (hvalue : RawValue.ofToken? t = some value) : value.Fit h := by
  unfold RawValue.ofToken? at hvalue
  split at hvalue <;> simp only [Option.some.injEq, reduceCtorEq] at hvalue <;> subst hvalue
  · exact trivial
  · exact ht
  · exact trivial
  · exact ht

theorem Field.readColor_ofBytes (h : Doubles α) {key : String} {value : RawValue α} {c : Color α}
    (hc : Field.readColor key value = .ok c) : c.OfBytes := by
  unfold Field.readColor at hc
  split at hc
  · split at hc
    · rename_i hhex
      obtain rfl := Except.ok.inj hc
      exact Color.ofHex?_ofBytes hhex
    · simp at hc
  · split at hc
    · rename_i hname
      obtain rfl := Except.ok.inj hc
      exact h.ofName?_ofBytes hname
    · simp at hc
  · simp at hc

/-- **A field that is read** is sound. -/
theorem Field.read_sound {key : String} {value : RawValue α} {f : Field α} (hvalue : value.Fit h)
    (hf : Field.read key value = .ok f) : f.Sound h := by
  have hname : ∀ {name}, Field.readName key value = .ok name → IsName name := by
    intro name hread
    unfold Field.readName at hread
    split at hread
    · obtain rfl := Except.ok.inj hread
      exact hvalue
    · simp at hread
  have hnumber : ∀ {x}, Field.readNumber key value = .ok x → h.finite x := by
    intro x hread
    unfold Field.readNumber at hread
    split at hread
    · obtain rfl := Except.ok.inj hread
      exact hvalue
    · simp at hread
  unfold Field.read at hf
  split at hf
  · simp at hf
  all_goals obtain ⟨v, hv, rfl⟩ := except_map_eq_ok.1 hf
  · exact Field.readColor_ofBytes h hv
  · exact Field.readColor_ofBytes h hv
  · exact hnumber hv
  · exact trivial
  · exact hname hv
  · exact hname hv
  · exact hname hv

end Fields

namespace Parsing

variable {h : Doubles α} {stop : ℕ} {ts : Tokens α}

theorem name_sound {p : Parsed α (Located String)} (hts : ∀ t ∈ ts, t.value.Fit h)
    (hp : name stop ts = .ok p) : IsName p.value.value ∧ ∀ t ∈ p.rest, t.value.Fit h := by
  unfold name at hp
  split at hp
  · obtain rfl := Except.ok.inj hp
    exact ⟨(List.forall_mem_cons.1 hts).1, (List.forall_mem_cons.1 hts).2⟩
  · simp at hp

theorem entries_sound {ready : Bool} {p : Parsed α (List (Located (Field α)))}
    (hts : ∀ t ∈ ts, t.value.Fit h) (hp : entries stop ready ts = .ok p) :
    (∀ f ∈ p.value, f.value.Sound h) ∧ ∀ t ∈ p.rest, t.value.Fit h := by
  fun_induction entries stop ready ts generalizing p with
  | case1 ready s rest ih => exact ih (List.forall_mem_cons.1 hts).2 hp
  | case2 ready s rest ih => exact ih (List.forall_mem_cons.1 hts).2 hp
  | case3 ready s rest =>
    obtain rfl := Except.ok.inj hp
    exact ⟨by simp, (List.forall_mem_cons.1 hts).2⟩
  | case4 text s rest ih =>
    obtain ⟨hcomment, hrest⟩ := List.forall_mem_cons.1 hts
    obtain ⟨after, hafter, hp⟩ := except_bind_eq_ok.1 hp
    obtain rfl := Except.ok.inj hp
    obtain ⟨hfields, hrest⟩ := ih hrest hafter
    exact ⟨List.forall_mem_cons.2 ⟨hcomment, hfields⟩, hrest⟩
  | case5 => simp at hp
  | case6 => simp at hp
  | case7 key s sc token e rest value hvalue field hfield ih =>
    simp only [List.forall_mem_cons] at hts
    obtain ⟨-, -, htoken, hrest⟩ := hts
    obtain ⟨after, hafter, hp⟩ := except_bind_eq_ok.1 hp
    obtain rfl := Except.ok.inj hp
    obtain ⟨hfields, hrest⟩ := ih hrest hafter
    have hsound := Field.read_sound (RawValue.ofToken?_fit htoken hvalue) hfield
    exact ⟨List.forall_mem_cons.2 ⟨hsound, hfields⟩, hrest⟩
  | case8 => simp at hp
  | case9 => simp at hp
  | case10 => simp at hp

theorem block_sound {p : Parsed α (List (Located (Field α)))} (hts : ∀ t ∈ ts, t.value.Fit h)
    (hp : block stop ts = .ok p) :
    (∀ f ∈ p.value, f.value.Sound h) ∧ ∀ t ∈ p.rest, t.value.Fit h := by
  unfold block at hp
  split at hp
  · exact entries_sound (List.forall_mem_cons.1 hts).2 hp
  · simp at hp

/-- An item that leaves the comment on its line takes it as its own. -/
theorem withTrailing_sound {start : ℕ} {item : Parsed α (Item α)}
    {follow : List (Option (Token α))} (hitem : item.value.Sound h)
    (hends : ¬item.value.EndsLine) (hrest : ∀ t ∈ item.rest, t.value.Fit h) :
    (withTrailing start item follow).declaration.value.Sound h ∧
      ∀ t ∈ (withTrailing start item follow).rest, t.value.Fit h := by
  unfold withTrailing
  split
  · rename_i text s rest heq
    rw [heq, List.forall_mem_cons] at hrest
    refine ⟨⟨hitem, fun t ht => ?_, fun hlast => absurd hlast hends⟩, hrest.2⟩
    obtain rfl := Option.some.inj ht
    exact hrest.1
  · exact ⟨⟨hitem, by simp, fun _ => rfl⟩, hrest⟩

/-! ### Constraints -/

theorem readTail_sound (hts : ∀ t ∈ ts, t.value.Fit h) :
    (∀ name ∈ (readTail ts).1, IsName name) ∧ ∀ t ∈ (readTail ts).2, t.value.Fit h := by
  fun_induction readTail ts with
  | case1 s segment s' rest tail after heq ih =>
    simp only [List.forall_mem_cons] at hts
    obtain ⟨-, hsegment, hrest⟩ := hts
    rw [heq] at ih
    obtain ⟨htail, hafter⟩ := ih hrest
    exact ⟨List.forall_mem_cons.2 ⟨hsegment, htail⟩, hafter⟩
  | case2 => exact ⟨by simp, hts⟩

theorem ofToken?_sound {t : Token α} {part : Part α} (ht : t.Fit h)
    (hpart : Part.ofToken? t = some part) : part.Sound h := by
  unfold Part.ofToken? at hpart
  split at hpart <;> simp only [Option.some.injEq, reduceCtorEq] at hpart <;> subst hpart
  · exact ht
  all_goals exact trivial

theorem readParts_sound (hts : ∀ t ∈ ts, t.value.Fit h) :
    (∀ p ∈ (readParts ts).1, p.Sound h) ∧ ∀ t ∈ (readParts ts).2, t.value.Fit h := by
  fun_induction readParts ts with
  | case1 => exact ⟨by simp, hts⟩
  | case2 t rest head ht parts after heq ih =>
    obtain ⟨hhead, hrest⟩ := List.forall_mem_cons.1 hts
    rw [ht] at hhead
    obtain ⟨htail, hafter⟩ := readTail_sound hrest
    obtain ⟨hparts, hleft⟩ := heq ▸ ih hafter
    -- a reference takes the names of its dots along, so the rest is what those leave
    exact ⟨List.forall_mem_cons.2 ⟨List.forall_mem_cons.2 ⟨hhead, htail⟩, hparts⟩, hleft⟩
  | case3 t rest part hpart parts after heq hname ih =>
    obtain ⟨ht, hrest⟩ := List.forall_mem_cons.1 hts
    obtain ⟨hparts, hleft⟩ := heq ▸ ih hrest
    exact ⟨List.forall_mem_cons.2 ⟨ofToken?_sound ht hpart, hparts⟩, hleft⟩
  | case4 => exact ⟨by simp, hts⟩

theorem takeComment_sound (hts : ∀ t ∈ ts, t.value.Fit h) :
    (∀ text ∈ (takeComment ts).1, '\n' ∉ text.toList) ∧
      ∀ t ∈ (takeComment ts).2, t.value.Fit h := by
  unfold takeComment
  split
  · obtain ⟨hcomment, hrest⟩ := List.forall_mem_cons.1 hts
    refine ⟨fun text ht => ?_, hrest⟩
    obtain rfl := Option.some.inj ht
    exact hcomment
  · exact ⟨by simp, hts⟩

omit [Numeral α] in
/-- What reading a constraint comes to: its parts with the comment after them make up the
equation. -/
theorem constraint_eq_ok {start : ℕ} {line : Line α} (hline : constraint start stop ts = .ok line) :
    ∃ e, line.declaration = ⟨⟨.constrain e, none⟩,
        ⟨start, stopBefore ts (takeComment (readParts ts).2).2⟩⟩ ∧
      line.rest = (takeComment (readParts ts).2).2 ∧ (readParts ts).1 ≠ [] ∧
      Equation.ofParts ((readParts ts).1 ++
        ((takeComment (readParts ts).2).1.map Part.comment).toList) = .ok e := by
  unfold constraint at hline
  simp only at hline
  split at hline
  · simp at hline
  rename_i hempty
  have hne : (readParts ts).1 ≠ [] := fun hnil => hempty (by rw [hnil]; rfl)
  split at hline
  · simp at hline
  · rename_i e he
    refine ⟨e, ?_⟩
    split at hline
    · split at hline
      · simp at hline
      · obtain rfl := Except.ok.inj hline
        exact ⟨rfl, rfl, hne, he⟩
    · obtain rfl := Except.ok.inj hline
      exact ⟨rfl, rfl, hne, he⟩

theorem constraint_sound {start : ℕ} {line : Line α} (hts : ∀ t ∈ ts, t.value.Fit h)
    (hline : constraint start stop ts = .ok line) :
    line.declaration.value.Sound h ∧ ∀ t ∈ line.rest, t.value.Fit h := by
  obtain ⟨e, hdeclaration, hrest, -, he⟩ := constraint_eq_ok hline
  obtain ⟨hparts, hafter⟩ := readParts_sound hts
  obtain ⟨hcomment, hleft⟩ := takeComment_sound hafter
  rw [hdeclaration, hrest]
  refine ⟨⟨?_, by simp, fun _ => rfl⟩, hleft⟩
  -- the parts of the equation are among those that were read, so they are sound as well
  obtain ⟨hinit, hagain⟩ := Equation.assemble_parts (Equation.ofParts_eq_ok.1 he)
  refine ⟨hagain, fun p hp => ?_⟩
  rcases List.mem_append.1 (hinit.subset hp) with hp | hp
  · exact hparts p hp
  · obtain ⟨text, ht, rfl⟩ := Option.map_eq_some_iff.1 (Option.mem_toList.1 hp)
    exact hcomment text ht

/-! ### Declarations -/

/-- **A declaration that is read** is sound. -/
theorem declaration_sound {line : Line α} (hts : ∀ t ∈ ts, t.value.Fit h)
    (hline : declaration stop ts = .ok line) :
    line.declaration.value.Sound h ∧ ∀ t ∈ line.rest, t.value.Fit h := by
  unfold declaration at hline
  split at hline
  · obtain ⟨-, hrest⟩ := List.forall_mem_cons.1 hts
    obtain ⟨n, hn, hline⟩ := except_bind_eq_ok.1 hline
    obtain ⟨b, hb, hline⟩ := except_bind_eq_ok.1 hline
    obtain rfl := Except.ok.inj hline
    obtain ⟨hname, hrest⟩ := name_sound hrest hn
    obtain ⟨hfields, hrest⟩ := block_sound hrest hb
    exact withTrailing_sound ⟨hname, hfields⟩ id hrest
  · obtain ⟨-, hrest⟩ := List.forall_mem_cons.1 hts
    obtain ⟨n, hn, hline⟩ := except_bind_eq_ok.1 hline
    obtain ⟨hname, hrest⟩ := name_sound hrest hn
    split at hline
    · obtain ⟨b, hb, hline⟩ := except_bind_eq_ok.1 hline
      obtain rfl := Except.ok.inj hline
      obtain ⟨hfields, hrest⟩ := block_sound hrest hb
      exact withTrailing_sound ⟨hname, hfields⟩ id hrest
    · obtain rfl := Except.ok.inj hline
      exact withTrailing_sound ⟨hname, by simp⟩ id hrest
  · obtain ⟨-, hrest⟩ := List.forall_mem_cons.1 hts
    obtain ⟨n, hn, hline⟩ := except_bind_eq_ok.1 hline
    obtain ⟨m, hm, hline⟩ := except_bind_eq_ok.1 hline
    obtain ⟨b, hb, hline⟩ := except_bind_eq_ok.1 hline
    obtain rfl := Except.ok.inj hline
    obtain ⟨hsource, hrest⟩ := name_sound hrest hn
    obtain ⟨htarget, hrest⟩ := name_sound hrest hm
    obtain ⟨hfields, hrest⟩ := block_sound hrest hb
    exact withTrailing_sound ⟨hsource, htarget, hfields⟩ id hrest
  · exact constraint_sound (List.forall_mem_cons.1 hts).2 hline
  · obtain rfl := Except.ok.inj hline
    obtain ⟨hcomment, hrest⟩ := List.forall_mem_cons.1 hts
    exact ⟨⟨hcomment, by simp, fun _ => rfl⟩, hrest⟩
  · simp at hline

theorem skipLineBreaks_sound (hts : ∀ t ∈ ts, t.value.Fit h) :
    ∀ t ∈ skipLineBreaks ts, t.value.Fit h := by
  fun_induction skipLineBreaks ts with
  | case1 s rest ih => exact ih (List.forall_mem_cons.1 hts).2
  | case2 => exact hts

theorem declarations_sound {ds : List (Located (Declaration α))} (hts : ∀ t ∈ ts, t.value.Fit h)
    (hds : declarations stop ts = .ok ds) : ∀ d ∈ ds, d.value.Sound h := by
  fun_induction declarations stop ts generalizing ds with
  | case1 =>
    obtain rfl := Except.ok.inj hds
    simp
  | case2 => simp at hds
  | case3 ts start hne line hline =>
    obtain rfl := Except.ok.inj hds
    simpa using (declaration_sound (skipLineBreaks_sound hts) hline).1
  | case4 ts start hne line hline s rest hrest =>
    rename_i ih
    obtain ⟨ds, hds', rfl⟩ := except_map_eq_ok.1 hds
    obtain ⟨hsound, hfit⟩ := declaration_sound (skipLineBreaks_sound hts) hline
    rw [hrest, List.forall_mem_cons] at hfit
    exact List.forall_mem_cons.2 ⟨hsound, ih hfit.2 hds'⟩
  | case5 => simp at hds

end Parsing

/-! ### Sources -/

/-- The numbers that a source spells. -/
def numbersOf (α : Type) [Numeral α] (source : String) : List α :=
  (tokensOf (pieces 0 source.toList)).filterMap fun t => match t.value with
    | .number x => some x
    | _ => none

omit [Scalar α] in
/-- If nothing is set aside, the tokens are those of all pieces. -/
theorem eq_tokensOf_of_lex {source : String} {tokens : List (Located (Token α))}
    (h : lex source = .ok tokens) : tokens = tokensOf (pieces 0 source.toList) := by
  unfold lex at h
  simp only at h
  split at h
  · exact (Except.ok.inj h).symm
  · simp at h

/-- **Every declaration of a source is sound** if its numbers are finite. -/
theorem parse_sound {h : Doubles α} {source : String} {d : Document α}
    (hfinite : ∀ x ∈ numbersOf α source, h.finite x) (hd : parse source = .ok d) :
    ∀ declaration ∈ d.declarations, declaration.value.Sound h := by
  unfold parse at hd
  split at hd
  · simp at hd
  · rename_i tokens htokens
    split at hd
    · simp at hd
    · rename_i declarations hdeclarations
      obtain rfl := Except.ok.inj hd
      refine Parsing.declarations_sound (fun t ht => ?_) hdeclarations
      refine (lex_sound htokens t ht).fit fun x hx => hfinite x ?_
      exact List.mem_filterMap.2 ⟨t, eq_tokensOf_of_lex htokens ▸ ht, by rw [hx]⟩

end Schematic
