import Schematic.Draw.Svg
import Schematic.Proofs.Spelling

/-!
# Tags

A reader of markup that knows tags with quoted attributes, and the five entities. It splits a text
into its tags and the texts between them. What is written as a tag is read as this tag, whatever
its attributes hold, and what is written between tags is read as one text: the characters that
would begin or end a tag, an attribute or an entity are never written as they are.

* `Markup.decode`: what a text with entities stands for.
* `Markup.read`: the tags of a text and the texts between them.
* `Text.decode_markup`: what is written with entities is read back.
* `Text.markup_eq_replaced`: five replacements, one after the other, write the same.
* `Markup.Settled.read`: tags with texts between them are read back.
-/

namespace Schematic

namespace Markup

/-! ### Reading -/

/-- **What a text with entities stands for.** There are five of them. Any other ampersand stands for
nothing, and the character that begins a tag is no part of a text. -/
def decode : List Char → Option (List Char)
  | [] => some []
  | '&' :: rest => match rest with
    | 'a' :: 'm' :: 'p' :: ';' :: rest => (decode rest).map ('&' :: ·)
    | 'l' :: 't' :: ';' :: rest => (decode rest).map ('<' :: ·)
    | 'g' :: 't' :: ';' :: rest => (decode rest).map ('>' :: ·)
    | 'q' :: 'u' :: 'o' :: 't' :: ';' :: rest => (decode rest).map ('"' :: ·)
    | 'a' :: 'p' :: 'o' :: 's' :: ';' :: rest => (decode rest).map ('\'' :: ·)
    | _ => none
  | c :: rest => if c = '<' then none else (decode rest).map (c :: ·)

/-- A tag, or a text between tags. -/
inductive Mark where
  | header (name : String) (attributes : List (String × String))
  | opening (name : String) (attributes : List (String × String))
  /-- A tag that is closed at once. -/
  | closed (name : String) (attributes : List (String × String))
  | ending (name : String)
  | data (text : String)
deriving DecidableEq, Repr

/-- What names of tags and attributes are made of. -/
def isNameChar (c : Char) : Bool := c == '-' || c.isAlphanum

/-- The name at the head of a text, and the rest. -/
def name? (text : List Char) : Option (String × List Char) :=
  let name := text.takeWhile isNameChar
  if name.isEmpty then none else some (String.ofList name, text.drop name.length)

/-- The attribute at the head of a text: a name, and what its value stands for. -/
def attribute? (text : List Char) : Option ((String × String) × List Char) :=
  match name? text with
  | some (name, '=' :: '"' :: rest) =>
    let value := rest.takeWhile (· ≠ '"')
    match decode value, rest.drop value.length with
    | some held, '"' :: rest => some ((name, String.ofList held), rest)
    | _, _ => none
  | _ => none

theorem name?_length {text rest : List Char} {name : String} (h : name? text = some (name, rest)) :
    rest.length ≤ text.length := by
  unfold name? at h
  simp only at h
  split at h
  · simp at h
  · obtain ⟨-, rfl⟩ := Prod.mk.inj (Option.some.inj h)
    simp

theorem attribute?_length {text rest : List Char} {a : String × String}
    (h : attribute? text = some (a, rest)) : rest.length < text.length := by
  unfold attribute? at h
  split at h
  · rename_i name more hname
    have hle := name?_length hname
    simp only at h
    split at h
    · rename_i held rest' hheld hrest
      obtain ⟨-, rfl⟩ := Prod.mk.inj (Option.some.inj h)
      have hlength := congrArg List.length hrest
      simp only [List.length_drop, List.length_cons] at hlength hle
      omega
    · simp at h
  · simp at h

/-- The attributes at the head of a text, with a blank before each. -/
def attributes (text : List Char) : Option (List (String × String) × List Char) :=
  match text with
  | ' ' :: rest =>
    match _h : attribute? rest with
    | some (first, more) => (attributes more).map fun (others, rest) => (first :: others, rest)
    | none => none
  | _ => some ([], text)
termination_by text.length
decreasing_by
  have := attribute?_length _h
  simp only [List.length_cons]
  omega

/-- A name and attributes at the head of a text. -/
def named? (text : List Char) : Option ((String × List (String × String)) × List Char) :=
  (name? text).bind fun (name, rest) =>
    (attributes rest).map fun (all, rest) => ((name, all), rest)

/-- The tag at the head of a text, after its first character. -/
def tag? : List Char → Option (Mark × List Char)
  | '/' :: text => match name? text with
    | some (name, '>' :: rest) => some (.ending name, rest)
    | _ => none
  | '?' :: text => match named? text with
    | some ((name, all), '?' :: '>' :: rest) => some (.header name all, rest)
    | _ => none
  | text => match named? text with
    | some ((name, all), '>' :: rest) => some (.opening name all, rest)
    | some ((name, all), '/' :: '>' :: rest) => some (.closed name all, rest)
    | _ => none

theorem attributes_length {text rest : List Char} {all : List (String × String)}
    (h : attributes text = some (all, rest)) : rest.length ≤ text.length := by
  fun_induction attributes text generalizing all rest with
  | case1 text first more hattribute ih =>
    obtain ⟨⟨others, rest'⟩, hothers, hrest⟩ := Option.map_eq_some_iff.1 h
    obtain ⟨-, rfl⟩ := Prod.mk.inj hrest
    have hle := ih hothers
    have hlt := attribute?_length hattribute
    simp only [List.length_cons]
    omega
  | case2 => simp at h
  | case3 text =>
    obtain ⟨-, rfl⟩ := Prod.mk.inj (Option.some.inj h)
    exact le_rfl

theorem named?_length {text rest : List Char} {p : String × List (String × String)}
    (h : named? text = some (p, rest)) : rest.length ≤ text.length := by
  obtain ⟨⟨name, more⟩, hname, h⟩ := Option.bind_eq_some_iff.1 h
  obtain ⟨⟨all, rest'⟩, hall, hrest⟩ := Option.map_eq_some_iff.1 h
  obtain ⟨-, rfl⟩ := Prod.mk.inj hrest
  exact (attributes_length hall).trans (name?_length hname)

theorem tag?_length {text rest : List Char} {m : Mark} (h : tag? text = some (m, rest)) :
    rest.length ≤ text.length := by
  unfold tag? at h
  split at h
  · split at h
    · rename_i hname
      obtain ⟨-, rfl⟩ := Prod.mk.inj (Option.some.inj h)
      have hle := name?_length hname
      simp only [List.length_cons] at hle ⊢
      omega
    · simp at h
  · split at h
    · rename_i hnamed
      obtain ⟨-, rfl⟩ := Prod.mk.inj (Option.some.inj h)
      have hle := named?_length hnamed
      simp only [List.length_cons] at hle ⊢
      omega
    · simp at h
  · split at h
    · rename_i hnamed
      obtain ⟨-, rfl⟩ := Prod.mk.inj (Option.some.inj h)
      have hle := named?_length hnamed
      simp only [List.length_cons] at hle
      omega
    · rename_i hnamed
      obtain ⟨-, rfl⟩ := Prod.mk.inj (Option.some.inj h)
      have hle := named?_length hnamed
      simp only [List.length_cons] at hle
      omega
    · simp at h

/-- **The tags of a text and the texts between them.** -/
def read (text : List Char) : Option (List Mark) :=
  match text with
  | [] => some []
  | '<' :: rest =>
    match _h : tag? rest with
    | some (mark, after) => (read after).map (mark :: ·)
    | none => none
  | c :: rest =>
    match decode (c :: rest.takeWhile (· ≠ '<')) with
    | some held => (read (rest.dropWhile (· ≠ '<'))).map (.data (String.ofList held) :: ·)
    | none => none
termination_by text.length
decreasing_by
  · have := tag?_length _h
    simp only [List.length_cons]
    omega
  · have := (List.dropWhile_suffix (· ≠ '<') (l := rest)).length_le
    simp only [List.length_cons]
    omega

end Markup

/-! ### Texts with entities -/

namespace Text

variable {c : Char} {text : String} {rest : List Char}

/-- What is never written as it is. -/
theorem entity?_cases (c : Char) :
    entity? c = none ∨ c = '&' ∨ c = '<' ∨ c = '>' ∨ c = '"' ∨ c = '\'' := by
  unfold entity?
  split <;> simp

theorem markupChar_of_entity? (h : entity? c = none) : markupChar c = [c] := by
  rw [markupChar, h]

open Markup (decode)

theorem decode_cons_of_ne (hamp : c ≠ '&') (hlt : c ≠ '<') :
    decode (c :: rest) = (decode rest).map (c :: ·) := by
  conv_lhs => unfold decode
  split
  · rename_i heq
    simp at heq
  · rename_i heq
    exact absurd (List.cons.inj heq).1 hamp
  · rename_i heq
    obtain ⟨rfl, rfl⟩ := List.cons.inj heq
    exact if_neg hlt

/-- The entity of a character stands for it. -/
theorem decode_markupChar (c : Char) (rest : List Char) :
    decode (markupChar c ++ rest) = (decode rest).map (c :: ·) := by
  rcases entity?_cases c with h | rfl | rfl | rfl | rfl | rfl
  · have hamp : c ≠ '&' := by
      rintro rfl
      simp [entity?] at h
    have hlt : c ≠ '<' := by
      rintro rfl
      simp [entity?] at h
    rw [markupChar_of_entity? h, List.singleton_append, decode_cons_of_ne hamp hlt]
  all_goals simp [markupChar, entity?, decode]

theorem decode_flatMap_markupChar (text : List Char) :
    decode (text.flatMap markupChar) = some text := by
  induction text with
  | nil => simp [decode]
  | cons c text ih => rw [List.flatMap_cons, decode_markupChar, ih, Option.map_some]

/-- **What is written with entities is read back**, whatever the text is. -/
theorem decode_markup (text : String) : decode (markup text).toList = some text.toList := by
  rw [markup, String.toList_ofList, decode_flatMap_markupChar]

/-- Nothing that begins a tag or ends an attribute is written. -/
theorem not_mem_markup (hc : c = '<' ∨ c = '"') (text : String) : c ∉ (markup text).toList := by
  rw [markup, String.toList_ofList, List.mem_flatMap]
  rintro ⟨d, -, hd⟩
  rcases entity?_cases d with h | rfl | rfl | rfl | rfl | rfl
  · rw [markupChar_of_entity? h, List.mem_singleton] at hd
    subst hd
    rcases hc with rfl | rfl <;> simp [entity?] at h
  all_goals rcases hc with rfl | rfl <;> simp [markupChar, entity?] at hd

theorem markup_ne_nil (h : text ≠ "") : (markup text).toList ≠ [] := by
  intro hnil
  have hdecode := decode_markup text
  rw [hnil] at hdecode
  exact h (String.toList_eq_nil_iff.1 (Option.some.inj hdecode).symm)

/-- **Five replacements, one after the other**, write a text with entities. The ampersand goes
first, so that none of the later ones is replaced again. -/
theorem markup_eq_replaced (text : String) :
    markup text = replaced '\'' "&apos;" (replaced '"' "&quot;" (replaced '>' "&gt;"
      (replaced '<' "&lt;" (replaced '&' "&amp;" text)))) := by
  unfold markup replaced
  simp only [String.toList_ofList, List.flatMap_assoc]
  congr 2
  funext c
  rcases entity?_cases c with h | rfl | rfl | rfl | rfl | rfl
  · have hkept : ∀ d other, entity? d ≠ none → replacedChar d other c = [c] := by
      intro d other hd
      refine if_neg ?_
      rintro rfl
      exact hd h
    rw [markupChar_of_entity? h, hkept '&' _ (by simp [entity?]), List.flatMap_singleton,
      hkept '<' _ (by simp [entity?]), List.flatMap_singleton, hkept '>' _ (by simp [entity?]),
      List.flatMap_singleton, hkept '"' _ (by simp [entity?]), List.flatMap_singleton,
      hkept '\'' _ (by simp [entity?])]
  all_goals rfl

end Text

namespace Markup

/-! ### Writing -/

/-- Attributes as they are written, with entities in their values. -/
def attributesText (all : List (String × String)) : String :=
  String.join (all.map fun a => svgAttribute a.1 (Text.markup a.2))

/-- A tag or a text as it is written. -/
def Mark.text : Mark → String
  | header name all => "<?" ++ name ++ attributesText all ++ "?>"
  | opening name all => "<" ++ name ++ attributesText all ++ ">"
  | closed name all => "<" ++ name ++ attributesText all ++ "/>"
  | ending name => "</" ++ name ++ ">"
  | data text => Text.markup text

/-- Tags and texts, one after the other. -/
def textOf (marks : List Mark) : String := String.join (marks.map Mark.text)

section Texts

variable {us vs : List Mark} {all others : List (String × String)}

@[simp] theorem attributesText_nil : attributesText [] = "" := rfl

@[simp] theorem attributesText_cons (name value : String) :
    attributesText ((name, value) :: all) =
      svgAttribute name (Text.markup value) ++ attributesText all := by
  rw [attributesText, List.map_cons, String.join_cons, attributesText]

@[simp] theorem attributesText_append :
    attributesText (all ++ others) = attributesText all ++ attributesText others := by
  rw [attributesText, List.map_append, String.join_append, attributesText, attributesText]

@[simp] theorem textOf_nil : textOf [] = "" := rfl

@[simp] theorem textOf_cons (m : Mark) : textOf (m :: us) = m.text ++ textOf us := by
  rw [textOf, List.map_cons, String.join_cons, textOf]

@[simp] theorem textOf_append : textOf (us ++ vs) = textOf us ++ textOf vs := by
  rw [textOf, List.map_append, String.join_append, textOf, textOf]

@[simp] theorem textOf_flatMap {β : Type} (items : List β) (f : β → List Mark) :
    textOf (items.flatMap f) = String.join (items.map fun b => textOf (f b)) := by
  induction items with
  | nil => rfl
  | cons b items ih => rw [List.flatMap_cons, textOf_append, ih, List.map_cons, String.join_cons]

end Texts

/-- A name of a tag or of an attribute. -/
structure IsTagName (name : String) : Prop where
  nonempty : name.toList ≠ []
  parts : ∀ c ∈ name.toList, isNameChar c = true

instance (name : String) : Decidable (IsTagName name) :=
  decidable_of_iff (name.toList ≠ [] ∧ name.toList.all isNameChar = true)
    ⟨fun h => ⟨h.1, List.all_eq_true.1 h.2⟩, fun h => ⟨h.nonempty, List.all_eq_true.2 h.parts⟩⟩

/-- A tag whose names are names. -/
def Mark.IsTag : Mark → Prop
  | header name all | opening name all | closed name all =>
    IsTagName name ∧ ∀ a ∈ all, IsTagName a.1
  | ending name => IsTagName name
  | data _ => False

/-- **Tags with texts before them.** No text is empty, and no two of them are side by side. -/
inductive Settled : List Mark → Prop
  | nil : Settled []
  | tag {m : Mark} {rest : List Mark} (hm : m.IsTag) (h : Settled rest) : Settled (m :: rest)
  | data {text : String} {m : Mark} {rest : List Mark} (htext : text ≠ "") (hm : m.IsTag)
    (h : Settled rest) : Settled (.data text :: m :: rest)

/-- A text as it is read: nothing at all if it is empty. -/
def Mark.ofText (text : String) : List Mark := if text = "" then [] else [.data text]

@[simp] theorem textOf_ofText (text : String) : textOf (Mark.ofText text) = Text.markup text := by
  unfold Mark.ofText
  split
  · rename_i h
    rw [h]
    rfl
  · rw [textOf_cons, textOf_nil, String.append_empty]
    rfl

section Settled

variable {us vs : List Mark} {m : Mark}

theorem Settled.append (h : Settled us) (h' : Settled vs) : Settled (us ++ vs) := by
  induction h with
  | nil => exact h'
  | tag hm _ ih => exact .tag hm ih
  | data htext hm _ ih => exact .data htext hm ih

/-- A tag after a text. -/
theorem Settled.ofText (text : String) (hm : m.IsTag) (h : Settled us) :
    Settled (Mark.ofText text ++ m :: us) := by
  unfold Mark.ofText
  split
  · exact .tag hm h
  · rename_i htext
    exact .data htext hm h

theorem Settled.flatMap {β : Type} {items : List β} {f : β → List Mark}
    (h : ∀ b ∈ items, Settled (f b)) : Settled (items.flatMap f) := by
  induction items with
  | nil => exact .nil
  | cons b items ih =>
    obtain ⟨hb, hitems⟩ := List.forall_mem_cons.1 h
    rw [List.flatMap_cons]
    exact hb.append (ih hitems)

end Settled

/-! ### Reading what was written -/

section Reading

variable {name value : String} {all : List (String × String)} {rest : List Char} {m : Mark}
  {marks : List Mark}

theorem name?_append (hname : IsTagName name) (rest : List Char) (hrest : Stops isNameChar rest) :
    name? (name.toList ++ rest) = some (name, rest) := by
  have htake := takeWhile_append_of_stops hname.parts hrest
  simp only [name?, htake, List.drop_left, List.isEmpty_iff, if_neg hname.nonempty,
    String.ofList_toList]

/-- **An attribute is read back**, whatever its value is. -/
theorem attribute?_append (hname : IsTagName name) (value : String) (rest : List Char) :
    attribute? (name.toList ++ '=' :: '"' :: ((Text.markup value).toList ++ '"' :: rest)) =
      some ((name, value), rest) := by
  have hstop : Stops isNameChar ('=' :: '"' :: ((Text.markup value).toList ++ '"' :: rest)) :=
    stops_cons.2 rfl
  -- the value ends at the quote, since it has none of its own
  have hvalue : ((Text.markup value).toList ++ '"' :: rest).takeWhile (· ≠ '"') =
      (Text.markup value).toList := by
    refine takeWhile_append_of_stops (fun c hc => ?_) (stops_cons.2 (by simp))
    simp only [decide_eq_true_eq]
    rintro rfl
    exact Text.not_mem_markup (.inr rfl) value hc
  unfold attribute?
  rw [name?_append hname _ hstop]
  simp only [hvalue, Text.decode_markup, List.drop_left, String.ofList_toList]

theorem attributes_cons {a : String × String} {more : List Char}
    (h : attribute? rest = some (a, more)) : attributes (' ' :: rest) =
      (attributes more).map fun (others, rest) => (a :: others, rest) := by
  rw [attributes]
  split
  · rename_i hfound
    obtain ⟨rfl, rfl⟩ := Prod.mk.inj (Option.some.inj (h.symm.trans hfound))
    rfl
  · rename_i hnone
    exact absurd (h.symm.trans hnone) (by simp)

theorem attributes_of_stops (h : Stops (· == ' ') rest) : attributes rest = some ([], rest) := by
  unfold attributes
  split
  · simp [Stops] at h
  · rfl

/-- **Attributes are read back.** -/
theorem attributes_append (hall : ∀ a ∈ all, IsTagName a.1) (hrest : Stops (· == ' ') rest) :
    attributes ((attributesText all).toList ++ rest) = some (all, rest) := by
  induction all with
  | nil => exact attributes_of_stops hrest
  | cons a all ih =>
    obtain ⟨ha, hall⟩ := List.forall_mem_cons.1 hall
    have htext : (attributesText (a :: all)).toList ++ rest = ' ' :: (a.1.toList ++ '=' :: '"' ::
        ((Text.markup a.2).toList ++ '"' :: ((attributesText all).toList ++ rest))) := by
      simp [attributesText, svgAttribute]
    rw [htext, attributes_cons (attribute?_append ha a.2 _), ih hall]
    rfl

theorem named?_append (hname : IsTagName name) (hall : ∀ a ∈ all, IsTagName a.1)
    (rest : List Char) (hrest : Stops (fun c => c == ' ' || isNameChar c) rest) :
    named? (name.toList ++ ((attributesText all).toList ++ rest)) = some ((name, all), rest) := by
  have hblank : Stops (· == ' ') rest := hrest.mono fun c hc => by simp [hc]
  -- behind the name is the blank before the first attribute, or the end of the tag
  have hstop : Stops isNameChar ((attributesText all).toList ++ rest) := by
    cases all with
    | nil => exact hrest.mono fun c hc => by simp [hc]
    | cons a all => simp [Stops, attributesText, svgAttribute, isNameChar]
  simp only [named?, name?_append hname _ hstop, Option.bind_some, attributes_append hall hblank,
    Option.map_some]

/-- A tag that begins with a name is no header and ends nothing. -/
theorem IsTagName.tag?_append (h : IsTagName name) (rest : List Char) :
    tag? (name.toList ++ rest) = match named? (name.toList ++ rest) with
      | some ((name, all), '>' :: rest) => some (.opening name all, rest)
      | some ((name, all), '/' :: '>' :: rest) => some (.closed name all, rest)
      | _ => none := by
  obtain ⟨c, cs, hcs⟩ := List.exists_cons_of_ne_nil h.nonempty
  have hc := h.parts c (by rw [hcs]; exact List.mem_cons_self)
  rw [hcs, List.cons_append]
  conv_lhs => unfold tag?
  split
  · rename_i heq
    obtain ⟨rfl, -⟩ := List.cons.inj heq
    simp [isNameChar] at hc
  · rename_i heq
    obtain ⟨rfl, -⟩ := List.cons.inj heq
    simp [isNameChar] at hc
  · rfl

/-- **A tag is read back.** -/
theorem Mark.IsTag.exists_tag (hm : m.IsTag) : ∃ w, m.text.toList = '<' :: w ∧
    ∀ rest, tag? (w ++ rest) = some (m, rest) := by
  cases m with
  | header name all =>
    refine ⟨'?' :: (name.toList ++ ((attributesText all).toList ++ ['?', '>'])), ?_, fun rest => ?_⟩
    · simp [Mark.text]
    · have hnamed := named?_append hm.1 hm.2 ('?' :: '>' :: rest) (stops_cons.2 rfl)
      simp only [List.cons_append, List.append_assoc, List.nil_append, tag?, hnamed]
  | opening name all =>
    refine ⟨name.toList ++ ((attributesText all).toList ++ ['>']), ?_, fun rest => ?_⟩
    · simp [Mark.text]
    · have hnamed := named?_append hm.1 hm.2 ('>' :: rest) (stops_cons.2 rfl)
      simp only [List.append_assoc, List.singleton_append, hm.1.tag?_append, hnamed]
  | closed name all =>
    refine ⟨name.toList ++ ((attributesText all).toList ++ ['/', '>']), ?_, fun rest => ?_⟩
    · simp [Mark.text]
    · have hnamed := named?_append hm.1 hm.2 ('/' :: '>' :: rest) (stops_cons.2 rfl)
      simp only [List.append_assoc, List.cons_append, List.nil_append, hm.1.tag?_append, hnamed]
  | ending name =>
    refine ⟨'/' :: (name.toList ++ ['>']), ?_, fun rest => ?_⟩
    · simp [Mark.text]
    · have hname := name?_append hm ('>' :: rest) (stops_cons.2 rfl)
      simp only [List.cons_append, List.append_assoc, List.nil_append, tag?, hname]
  | data text => exact absurd hm id

theorem read_tag {w after : List Char} (h : tag? w = some (m, after)) :
    read ('<' :: w) = (read after).map (m :: ·) := by
  rw [read]
  split
  · rename_i hfound
    obtain ⟨rfl, rfl⟩ := Prod.mk.inj (Option.some.inj (h.symm.trans hfound))
    rfl
  · rename_i hnone
    exact absurd (h.symm.trans hnone) (by simp)

theorem read_of_ne {c : Char} (hc : c ≠ '<') :
    read (c :: rest) = match decode (c :: rest.takeWhile (· ≠ '<')) with
      | some held => (read (rest.dropWhile (· ≠ '<'))).map (.data (String.ofList held) :: ·)
      | none => none := by
  conv_lhs => unfold read
  split
  · rename_i heq
    simp at heq
  · rename_i heq
    exact absurd (List.cons.inj heq).1 hc
  · rename_i heq
    obtain ⟨rfl, rfl⟩ := List.cons.inj heq
    rfl

/-- A text is read up to the next tag. -/
theorem read_data {text : String} (htext : text ≠ "") (w : List Char) :
    read ((Text.markup text).toList ++ '<' :: w) =
      (read ('<' :: w)).map (.data text :: ·) := by
  obtain ⟨c, cs, hcs⟩ := List.exists_cons_of_ne_nil (Text.markup_ne_nil htext)
  have hplain : ∀ d ∈ c :: cs, decide (d ≠ '<') = true := by
    intro d hd
    simp only [decide_eq_true_eq]
    rintro rfl
    exact Text.not_mem_markup (.inl rfl) text (hcs ▸ hd)
  have hc : c ≠ '<' := by simpa using hplain c List.mem_cons_self
  have htake : (cs ++ '<' :: w).takeWhile (· ≠ '<') = cs :=
    takeWhile_append_of_stops (fun d hd => hplain d (List.mem_cons_of_mem c hd))
      (stops_cons.2 (by simp))
  have hdrop : (cs ++ '<' :: w).dropWhile (· ≠ '<') = '<' :: w := by
    rw [List.dropWhile_append_of_pos fun d hd => hplain d (List.mem_cons_of_mem c hd)]
    exact List.dropWhile_cons_of_neg (by simp)
  have hdecode := Text.decode_markup text
  rw [hcs] at hdecode
  rw [hcs, List.cons_append, read_of_ne hc, htake, hdrop, hdecode]
  simp only [String.ofList_toList]

/-- **Tags with texts between them are read back.** -/
theorem Settled.read (h : Settled marks) : read (textOf marks).toList = some marks := by
  induction h with
  | nil => simp [textOf, Markup.read]
  | @tag m rest hm _ ih =>
    obtain ⟨w, hw, htag⟩ := hm.exists_tag
    have htext : (textOf (m :: rest)).toList = '<' :: (w ++ (textOf rest).toList) := by
      simp [textOf_cons, hw]
    rw [htext, read_tag (htag _), ih, Option.map_some]
  | @data text m rest htext hm _ ih =>
    obtain ⟨w, hw, htag⟩ := hm.exists_tag
    have hall : (textOf (.data text :: m :: rest)).toList =
        (Text.markup text).toList ++ '<' :: (w ++ (textOf rest).toList) := by
      simp [textOf_cons, hw, show (Mark.data text).text = Text.markup text from rfl]
    rw [hall, read_data htext, read_tag (htag _), ih, Option.map_some, Option.map_some]

example : Markup.read "<a b=\"&quot;c&gt;\"/>d &amp; e</a>".toList =
    some [.closed "a" [("b", "\"c>")], .data "d & e", .ending "a"] := by decide +kernel

/-- An ampersand that begins no entity, and a value that would end too late. -/
example : Markup.read "<a>b & c</a>".toList = none ∧
    Markup.read "<a b=\"c><d\"/>".toList = none := by decide +kernel

end Reading

end Markup
end Schematic
