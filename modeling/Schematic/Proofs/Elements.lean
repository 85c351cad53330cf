import Schematic.Proofs.PathData
import Schematic.Proofs.Replaying
import Schematic.Proofs.Tags

/-!
# The elements of a document

Whatever is drawn, the document that is written of it has one element for each thing drawn, in their
order. The texts that come from outside are the lines of labels and the font family. Both are
written with entities, so they are read back as they are and begin or end nothing. All other
attributes are numbers, colours, path data and words without any of the five characters. The data of
a path, read as commands, go from point to point as the path does.

* `Text.Unmarked`: a text that is the same with entities.
* `Decimal.plain_unmarked`: numbers are such texts.
* `Shape.Tagged`: the tags that something drawn is read as.
* `Shape.marks`, `Shape.tagged_marks`: the tags that are written of it are such tags.
* `svgDocument_eq_textOf`: a document is written as its tags are.
* `read_svgOfCommands`: the tags of a document.
-/

namespace Schematic

/-! ### Texts without entities -/

namespace Text

/-- **A text that is the same with entities.** -/
def Unmarked (text : String) : Prop := ∀ c ∈ text.toList, entity? c = none

instance (text : String) : Decidable (Unmarked text) :=
  List.decidableBAll (fun c => entity? c = none) text.toList

variable {s t : String}

theorem markup_of_unmarked (h : Unmarked t) : markup t = t := by
  have hflat : ∀ cs : List Char, (∀ c ∈ cs, entity? c = none) → cs.flatMap markupChar = cs := by
    intro cs hcs
    induction cs with
    | nil => rfl
    | cons c cs ih =>
      obtain ⟨hc, hcs⟩ := List.forall_mem_cons.1 hcs
      rw [List.flatMap_cons, markupChar_of_entity? hc, ih hcs, List.singleton_append]
  rw [markup, hflat t.toList h, String.ofList_toList]

theorem Unmarked.append (hs : Unmarked s) (ht : Unmarked t) : Unmarked (s ++ t) := by
  intro c hc
  rw [String.toList_append, List.mem_append] at hc
  exact hc.elim (hs c) (ht c)

theorem Unmarked.intercalate {parts : List String} (hs : Unmarked s)
    (h : ∀ t ∈ parts, Unmarked t) : Unmarked (s.intercalate parts) := by
  induction parts with
  | nil => exact fun c hc => by simp at hc
  | cons t rest ih =>
    obtain ⟨ht, hrest⟩ := List.forall_mem_cons.1 h
    cases rest with
    | nil => simpa using ht
    | cons u rest =>
      rw [String.intercalate_cons_cons]
      exact (ht.append hs).append (ih hrest)

theorem entity?_of_isAlphanum {c : Char} (h : c.isAlphanum = true) : entity? c = none := by
  rcases entity?_cases c with hnone | rfl | rfl | rfl | rfl | rfl
  · exact hnone
  all_goals simp at h

theorem entity?_of_isDigit {c : Char} (h : c.isDigit = true) : entity? c = none :=
  entity?_of_isAlphanum (by simp [Char.isAlphanum, h])

end Text

open Text (Unmarked)

/-! ### Numbers and colours -/

namespace Decimal

theorem isDigit_of_mem_positional {digits : ℕ} {power : ℤ} {c : Char}
    (h : c ∈ (positional digits power).toList) : c = '.' ∨ c.isDigit = true := by
  have hdigits : ∀ c ∈ Nat.toDigits 10 digits, c.isDigit = true :=
    fun c hc => Nat.isDigit_of_mem_toDigits (by decide) le_rfl hc
  have hzeros : ∀ n, ∀ c ∈ List.replicate n '0', c.isDigit = true := by
    intro n c hc
    rw [List.eq_of_mem_replicate hc]
    rfl
  unfold positional at h
  simp only at h
  split at h
  · split at h
    · simp at h
      subst h
      exact .inr rfl
    · rw [String.toList_ofList, List.mem_append] at h
      exact .inr (h.elim (hdigits c) (hzeros _ c))
  · -- zeros are put before the digits, and all of them are split at the point
    generalize hpadded : List.replicate _ '0' ++ Nat.toDigits 10 digits = padded at h
    have hall : ∀ c ∈ padded, c.isDigit = true := by
      intro c hc
      rw [← hpadded, List.mem_append] at hc
      exact hc.elim (hzeros _ c) (hdigits c)
    split at h
    · rw [String.toList_ofList] at h
      exact .inr (hall c (List.mem_of_mem_take h))
    · rw [String.toList_ofList, List.mem_append, List.mem_cons, List.mem_reverse] at h
      rcases h with h | h | h
      · exact .inr (hall c (List.mem_of_mem_take h))
      · exact .inl h
      · have hmem := (List.dropWhile_suffix _).subset h
        exact .inr (hall c (List.mem_of_mem_drop (List.mem_reverse.1 hmem)))

/-- **A number is written without entities.** -/
theorem plain_unmarked (x : Binary) : Unmarked (plain x) := by
  have hsign : ∀ negative, Unmarked (signText negative) := by decide +kernel
  unfold plain
  split
  · decide +kernel
  · exact (hsign _).append (by decide +kernel)
  · refine (hsign _).append fun c hc => ?_
    rcases isDigit_of_mem_positional hc with rfl | hdigit
    · rfl
    · exact Text.entity?_of_isDigit hdigit

end Decimal

theorem repr_unmarked (n : ℕ) : Unmarked (toString n) := by
  intro c hc
  rw [show toString n = n.repr from rfl, Nat.toList_repr] at hc
  exact Text.entity?_of_isDigit (Nat.isDigit_of_mem_toDigits (by decide) le_rfl hc)

theorem digitChar_entity? (n : ℕ) : Text.entity? (Nat.digitChar n) = none := by
  by_cases hn : n < 16
  · interval_cases n <;> rfl
  · have hstar : Nat.digitChar n = '*' := by
      unfold Nat.digitChar
      iterate 16 rw [if_neg (by omega)]
    rw [hstar]
    rfl

theorem opacityText_unmarked (byte : ℕ) : Unmarked (opacityText byte) := by
  have hzeros : ∀ n, Unmarked (String.join (List.replicate n "0")) := by
    intro n c hc
    rw [String.toList_join, List.mem_flatMap] at hc
    obtain ⟨zero, hzero, hc⟩ := hc
    obtain rfl := List.eq_of_mem_replicate hzero
    obtain rfl : c = '0' := by simpa using hc
    rfl
  have hpoint : Unmarked "." := by decide +kernel
  exact (((repr_unmarked _).append hpoint).append (hzeros _)).append (repr_unmarked _)

section Colors

variable {α : Type} [Scalar α]

theorem Color.rgbText_unmarked (color : Color α) : Unmarked color.rgbText := by
  intro c hc
  rw [rgbText, String.toList_ofList, List.mem_cons, List.mem_flatMap] at hc
  rcases hc with rfl | ⟨byte, -, hc⟩
  · rfl
  · simp only [hexByte, hexChar, List.mem_cons, List.not_mem_nil, or_false] at hc
    rcases hc with rfl | rfl <;> exact digitChar_entity? _

/-- The attributes of a colour, which has an opacity only if the ground is seen through it. -/
def Color.attributes (name : String) (color : Color α) : List (String × String) :=
  if color.alpha ≤ Scalar.zero then [(name, "none")]
  else (name, color.rgbText) ::
    if color.alpha < Scalar.one then
      [(name ++ "-opacity", opacityText (Color.byte color.alpha))]
    else []

end Colors

open Markup

@[simp] theorem Color.attributesText_attributes {α : Type} [Scalar α] (name : String)
    (color : Color α) : attributesText (color.attributes name) = paintAttributes name color := by
  have hnone : Unmarked "none" := by decide +kernel
  unfold attributes paintAttributes
  split
  · rw [attributesText_cons, Text.markup_of_unmarked hnone, attributesText_nil,
      String.append_empty]
  · rw [attributesText_cons, Text.markup_of_unmarked color.rgbText_unmarked]
    split
    · rw [attributesText_cons, Text.markup_of_unmarked (opacityText_unmarked _),
        attributesText_nil, String.append_empty]
    · rw [attributesText_nil, String.append_empty]

/-! ### Shapes -/

section Shapes

variable {α : Type} [Scalar α] [Numeral α]

/-- The attributes of a rectangle. -/
def Rect.attributes (r : Rect α) : List (String × String) :=
  [("x", Numeral.plain r.left), ("y", Numeral.plain r.top),
    ("width", Numeral.plain r.size.width), ("height", Numeral.plain r.size.height)]

/-- The attributes of the line of a path, which has a colour and a width. -/
def strokeAttributes : Option (Color α × α) → List (String × String)
  | some (color, width) => color.attributes "stroke" ++ [("stroke-width", Numeral.plain width)]
  | none => []

/-- The attributes of a line of text. -/
def StyledText.attributes (fontFamily : String) (anchor : Point α) (style : StyledText α) :
    List (String × String) :=
  [("x", Numeral.plain anchor.x), ("y", Numeral.plain anchor.y),
    ("text-anchor", style.alignment.anchorText), ("dominant-baseline", "middle"),
    ("font-family", fontFamily), ("font-size", Numeral.plain style.size)] ++
    style.color.attributes "fill"

/-- **The tags that something drawn is read as**: one that is closed at once, or two with a line of
text between them. The data of a path are read as the parts of the path. -/
inductive Shape.Tagged (fontFamily : String) : Shape Float → List Mark → Prop
  | rect (r : Rect Float) (fill : Color Float) :
    Tagged fontFamily (.rect r fill) [.closed "rect" (r.attributes ++ fill.attributes "fill")]
  | path {steps : List (PathStep Float)} {data : String} (fill : Color Float)
    (stroke : Option (Color Float × Float))
    (h : PathData.read data = some (steps.flatMap PathStep.strokes)) :
    Tagged fontFamily (.path steps fill stroke)
      [.closed "path" (("d", data) :: (fill.attributes "fill" ++ strokeAttributes stroke))]
  | line (text : String) (anchor : Point Float) (style : StyledText Float) :
    Tagged fontFamily (.line text anchor style)
      (.opening "text" (style.attributes fontFamily anchor) :: Mark.ofText text ++
        [.ending "text"])

/-- The data of a path. -/
def pathData (steps : List (PathStep α)) : String := " ".intercalate (steps.map PathStep.text)

/-- The tags that are written of a shape. -/
def Shape.marks (fontFamily : String) : Shape α → List Mark
  | rect r fill => [.closed "rect" (r.attributes ++ fill.attributes "fill")]
  | path steps fill stroke =>
    [.closed "path" (("d", pathData steps) ::
      (fill.attributes "fill" ++ strokeAttributes stroke))]
  | line text anchor style =>
    .opening "text" (style.attributes fontFamily anchor) :: Mark.ofText text ++ [.ending "text"]

/-- What is written of a shape is read as it, unless it is a path without any part. -/
theorem Shape.tagged_marks {s : Shape Float}
    (h : ∀ steps fill stroke, s = .path steps fill stroke → steps ≠ []) (fontFamily : String) :
    s.Tagged fontFamily (s.marks fontFamily) := by
  cases s with
  | rect r fill => exact .rect r fill
  | path steps fill stroke =>
    exact .path fill stroke (PathData.read_pathData (h steps fill stroke rfl))
  | line text anchor style => exact .line text anchor style

variable (hplain : ∀ x : α, Unmarked (Numeral.plain x))

include hplain

theorem PathStep.text_unmarked (step : PathStep α) : Unmarked step.text := by
  have hmove : Unmarked "M" := by decide +kernel
  have hline : Unmarked "L" := by decide +kernel
  have hblank : Unmarked " " := by decide +kernel
  have hright : Unmarked " h" := by decide +kernel
  have hdown : Unmarked " v" := by decide +kernel
  have hend : Unmarked " Z" := by decide +kernel
  cases step with
  | move p => exact ((hmove.append (hplain _)).append hblank).append (hplain _)
  | line p => exact ((hline.append (hplain _)).append hblank).append (hplain _)
  | outline r =>
    exact (((((((((hmove.append (hplain _)).append hblank).append (hplain _)).append
      hright).append (hplain _)).append hdown).append (hplain _)).append hright).append
      (hplain _)).append hend

theorem pathData_unmarked (steps : List (PathStep α)) : Unmarked (pathData steps) := by
  refine Unmarked.intercalate (by decide +kernel) fun t ht => ?_
  obtain ⟨step, -, rfl⟩ := List.mem_map.1 ht
  exact step.text_unmarked hplain

/-- **A shape is written** as its tags are. -/
theorem Shape.text_element (fontFamily : String) (s : Shape α) :
    s.element.text fontFamily = textOf (s.marks fontFamily) := by
  have hnumber : ∀ x : α, Text.markup (Numeral.plain x) = Numeral.plain x :=
    fun x => Text.markup_of_unmarked (hplain x)
  cases s with
  | rect r fill =>
    unfold element SvgElement.text
    simp [marks, Rect.attributes, Mark.text, numberAttribute, hnumber, ← String.toList_inj]
  | path steps fill stroke =>
    have helement : (path steps fill stroke).element = .path (pathData steps) fill stroke := rfl
    have hdata := Text.markup_of_unmarked (pathData_unmarked hplain steps)
    rw [helement]
    unfold SvgElement.text
    rcases stroke with - | ⟨color, width⟩ <;>
      simp [marks, strokeAttributes, Mark.text, numberAttribute, hdata, hnumber,
        ← String.toList_inj]
  | line text anchor style =>
    have hanchor : Text.markup style.alignment.anchorText = style.alignment.anchorText :=
      Text.markup_of_unmarked (by cases style.alignment <;> decide +kernel)
    have hmiddle : Text.markup "middle" = "middle" := Text.markup_of_unmarked (by decide +kernel)
    unfold element SvgElement.text
    simp [marks, StyledText.attributes, Mark.text, numberAttribute, hanchor, hmiddle, hnumber,
      ← String.toList_inj]

omit hplain [Numeral α] in
theorem Color.isTagName_attributes {name : String} (hname : IsTagName name)
    (hopacity : IsTagName (name ++ "-opacity")) (color : Color α) :
    ∀ a ∈ color.attributes name, IsTagName a.1 := by
  unfold attributes
  split
  · simpa using hname
  · split
    · simpa using ⟨hname, hopacity⟩
    · simpa using hname

omit hplain in
/-- The tags of a shape have names, and a text may come before them. -/
theorem Shape.settled_marks (fontFamily gap : String) (s : Shape α) :
    Settled (Mark.ofText gap ++ s.marks fontFamily) := by
  have hfill : ∀ color : Color α, ∀ a ∈ color.attributes "fill", IsTagName a.1 :=
    Color.isTagName_attributes (by decide +kernel) (by decide +kernel)
  have hstroke : ∀ color : Color α, ∀ a ∈ color.attributes "stroke", IsTagName a.1 :=
    Color.isTagName_attributes (by decide +kernel) (by decide +kernel)
  cases s with
  | rect r fill =>
    have hnames : ∀ name ∈ ["rect", "x", "y", "width", "height"], IsTagName name := by
      decide +kernel
    obtain ⟨htag, hnames⟩ := List.forall_mem_cons.1 hnames
    refine .ofText gap ⟨htag, List.forall_mem_append.2 ⟨?_, hfill fill⟩⟩ .nil
    simpa [Rect.attributes] using hnames
  | path steps fill stroke =>
    have hnames : ∀ name ∈ ["path", "d", "stroke-width"], IsTagName name := by decide +kernel
    simp only [List.forall_mem_cons] at hnames
    obtain ⟨htag, hdata, hwidth, -⟩ := hnames
    refine .ofText gap ⟨htag, List.forall_mem_cons.2 ⟨hdata, List.forall_mem_append.2
      ⟨hfill fill, ?_⟩⟩⟩ .nil
    cases stroke with
    | none => simp [strokeAttributes]
    | some stroke => exact List.forall_mem_append.2 ⟨hstroke stroke.1, by simpa using hwidth⟩
  | line text anchor style =>
    have hnames : ∀ name ∈ ["text", "x", "y", "text-anchor", "dominant-baseline", "font-family",
        "font-size"], IsTagName name := by decide +kernel
    obtain ⟨htag, hnames⟩ := List.forall_mem_cons.1 hnames
    have hending : Mark.IsTag (.ending "text") := htag
    refine .ofText gap ⟨htag, List.forall_mem_append.2 ⟨?_, hfill style.color⟩⟩
      (.ofText text hending .nil)
    simpa using hnames

end Shapes

/-! ### Documents -/

section Documents

variable {α : Type} [Scalar α] [Numeral α]

/-- The header of a document. -/
def headerMark : Mark := .header "xml" [("version", "1.0"), ("encoding", "UTF-8")]

/-- The start of the root of a document of a size. -/
def rootMark (size : Size α) : Mark :=
  .opening "svg" [("xmlns", "http://www.w3.org/2000/svg"), ("width", Numeral.plain size.width),
    ("height", Numeral.plain size.height),
    ("viewBox", "0 0 " ++ Numeral.plain size.width ++ " " ++ Numeral.plain size.height)]

/-- What stands before a tag if the document is to be read by people: a new line. -/
def lineStart (prettyPrint : Bool) (indent : String) : List Mark :=
  Mark.ofText (if prettyPrint then "\n" ++ indent else "")

/-- **The tags of a document**: its header, the start of its root, those of its elements in their
order, and the end of its root. -/
def documentMarks (settings : SvgSettings α) (size : Size α) (elements : List (List Mark)) :
    List Mark :=
  [headerMark] ++ (lineStart settings.prettyPrint "" ++ [rootMark size]) ++
    elements.flatMap (lineStart settings.prettyPrint "  " ++ ·) ++
    (lineStart settings.prettyPrint "" ++ [.ending "svg"])

theorem headerMark_isTag : headerMark.IsTag := by
  have hnames : ∀ name ∈ ["xml", "version", "encoding"], IsTagName name := by decide +kernel
  obtain ⟨htag, hnames⟩ := List.forall_mem_cons.1 hnames
  exact ⟨htag, by simpa using hnames⟩

omit [Scalar α] in
theorem rootMark_isTag (size : Size α) : (rootMark size).IsTag := by
  have hnames : ∀ name ∈ ["svg", "xmlns", "width", "height", "viewBox"], IsTagName name := by
    decide +kernel
  obtain ⟨htag, hnames⟩ := List.forall_mem_cons.1 hnames
  exact ⟨htag, by simpa using hnames⟩

/-- The tags of a document have names, and texts stand before tags only. -/
theorem documentMarks_settled (settings : SvgSettings α) (size : Size α) (drawn : List (Shape α)) :
    Settled (documentMarks settings size (drawn.map (Shape.marks settings.fontFamily))) := by
  have hending : Mark.IsTag (.ending "svg") := by
    have hsvg : IsTagName "svg" := by decide +kernel
    exact hsvg
  have hheader : Settled [headerMark] := .tag headerMark_isTag .nil
  have hroot := Settled.ofText (if settings.prettyPrint then "\n" ++ "" else "")
    (rootMark_isTag size) .nil
  have hend := Settled.ofText (if settings.prettyPrint then "\n" ++ "" else "") hending .nil
  rw [documentMarks, List.flatMap_map]
  exact ((hheader.append hroot).append (.flatMap fun s _ => s.settled_marks _ _)).append hend

theorem headerMark_text : headerMark.text =
    "<?xml" ++ svgAttribute "version" "1.0" ++ svgAttribute "encoding" "UTF-8" ++ "?>" := by
  have hversion : Text.markup "1.0" = "1.0" := Text.markup_of_unmarked (by decide +kernel)
  have hencoding : Text.markup "UTF-8" = "UTF-8" := Text.markup_of_unmarked (by decide +kernel)
  simp [headerMark, Mark.text, hversion, hencoding, ← String.toList_inj]

theorem intercalate_cons (sep first : String) (rest : List String) :
    sep.intercalate (first :: rest) = first ++ String.join (rest.map (sep ++ ·)) := by
  induction rest generalizing first with
  | nil => simp
  | cons second rest ih =>
    rw [String.intercalate_cons_cons, ih, List.map_cons, String.join_cons]
    simp only [String.append_assoc]

theorem textOf_lineStart (prettyPrint : Bool) {indent : String} (h : Unmarked indent) :
    textOf (lineStart prettyPrint indent) = if prettyPrint then "\n" ++ indent else "" := by
  have hline : Unmarked "\n" := by decide +kernel
  rw [lineStart, textOf_ofText]
  split
  · exact Text.markup_of_unmarked (hline.append h)
  · rfl

variable (hplain : ∀ x : α, Unmarked (Numeral.plain x))

include hplain

omit [Scalar α] in
theorem rootMark_text (size : Size α) : (rootMark size).text =
    "<svg" ++ svgAttribute "xmlns" "http://www.w3.org/2000/svg" ++
      svgAttribute "width" (Numeral.plain size.width) ++
      svgAttribute "height" (Numeral.plain size.height) ++ svgAttribute "viewBox"
        ("0 0 " ++ Numeral.plain size.width ++ " " ++ Numeral.plain size.height) ++ ">" := by
  have hnumber : ∀ x : α, Text.markup (Numeral.plain x) = Numeral.plain x :=
    fun x => Text.markup_of_unmarked (hplain x)
  have hxmlns : Text.markup "http://www.w3.org/2000/svg" = "http://www.w3.org/2000/svg" :=
    Text.markup_of_unmarked (by decide +kernel)
  have hbox :
      Unmarked ("0 0 " ++ Numeral.plain size.width ++ " " ++ Numeral.plain size.height) := by
    have hzeros : Unmarked "0 0 " := by decide +kernel
    have hblank : Unmarked " " := by decide +kernel
    exact ((hzeros.append (hplain _)).append hblank).append (hplain _)
  simp only [rootMark, Mark.text, attributesText_cons, attributesText_nil, hnumber, hxmlns,
    Text.markup_of_unmarked hbox, ← String.toList_inj]
  simp

/-- **A document is written** as its tags are. -/
theorem svgDocument_eq_textOf (settings : SvgSettings α) (size : Size α) (drawn : List (Shape α)) :
    svgDocument settings size (drawn.map Shape.element) =
      textOf (documentMarks settings size (drawn.map (Shape.marks settings.fontFamily))) := by
  have hindent : Unmarked "  " := by decide +kernel
  have hempty : Unmarked "" := by decide +kernel
  have hending : (Mark.ending "svg").text = "</svg>" := by simp [Mark.text]
  have hlines : ∀ line indent : String, (((drawn.map Shape.element).map fun e =>
      indent ++ e.text settings.fontFamily).map (line ++ ·)) =
        drawn.map fun s => line ++ indent ++ textOf (s.marks settings.fontFamily) := by
    intro line indent
    rw [List.map_map, List.map_map]
    exact List.map_congr_left fun s _ => by
      simp only [Function.comp_apply, Shape.text_element hplain, String.append_assoc]
  unfold svgDocument svgLines documentMarks
  simp only [List.flatMap_map, List.cons_append, List.nil_append, intercalate_cons, textOf_cons,
    textOf_append, textOf_flatMap, textOf_nil, textOf_lineStart _ hindent,
    textOf_lineStart _ hempty, hending, headerMark_text, rootMark_text hplain, List.map_append,
    List.map_cons, List.map_nil, String.join_append, String.join_cons, String.join_nil, hlines]
  cases settings.prettyPrint <;> simp [← String.toList_inj]

omit hplain

variable {text : TextSettings Float} {commands : List (DrawCommand Float)}
  {drawn : List (Shape Float)}

/-- What commands draw is read from the document that is written of them. -/
theorem exists_read_of_drawn (h : Drawn text commands drawn) (settings : SvgSettings Float)
    (size : Size Float) : ∃ elements,
      List.Forall₂ (Shape.Tagged settings.fontFamily) drawn elements ∧
      Markup.read (svgOfCommands settings text size commands).toList =
        some (documentMarks settings size elements) := by
  have hplain : ∀ x : Float, Unmarked (Numeral.plain x) :=
    fun x => Decimal.plain_unmarked (.ofFloat x)
  refine ⟨drawn.map (Shape.marks settings.fontFamily), ?_, ?_⟩
  · refine List.forall₂_map_right_iff.2 (List.forall₂_same.2 fun s hs => ?_)
    refine Shape.tagged_marks (fun steps fill stroke hpath => ?_) _
    exact h.steps_ne_nil (hpath ▸ hs)
  · rw [svgOfCommands, drawn_iff.1 h, svgDocument_eq_textOf hplain]
    exact (documentMarks_settled settings size drawn).read

/-- **The tags of a document.** Whatever commands draw, of whatever size and with whatever font
family, what is written is read as one header, one root, and in it one element for each thing drawn,
in their order. A line of text is read as it was drawn, and the font family as it was set. -/
theorem read_svgOfCommands (settings : SvgSettings Float) (text : TextSettings Float)
    (size : Size Float) (commands : List (DrawCommand Float)) :
    ∃ drawn elements, Drawn text commands drawn ∧
      List.Forall₂ (Shape.Tagged settings.fontFamily) drawn elements ∧
      Markup.read (svgOfCommands settings text size commands).toList =
        some (documentMarks settings size elements) := by
  have hdrawn : Drawn text commands (shapes text commands) := drawn_iff.2 rfl
  obtain ⟨elements, htagged, hread⟩ := exists_read_of_drawn hdrawn settings size
  exact ⟨_, elements, hdrawn, htagged, hread⟩

end Documents
end Schematic
