import Mathlib
import Schematic.Draw.Svg
import Schematic.Proofs.Numbers

/-!
# Path data

A reader of path data that knows five commands and the numbers behind them. It splits a text at its
blanks and reads a number from every word, and nothing in it depends on how the data are written.
The data that are written of a path are read as its parts: its points are the same doubles again,
also those that are not finite, and an outline goes around its rectangle and is closed.

* `PathData.number?`: the double that a word stands for.
* `PathData.read`: the commands of a text.
* `PathData.number?_plain`: every double is read back from its text.
* `PathStep.strokes`: what a part of a path is drawn with.
* `PathData.read_pathData`: the data of a path are read as its parts.
-/

namespace Schematic

namespace PathData

open Lexeme (digitsValue)

/-! ### Reading -/

/-- A command of path data. -/
inductive Stroke where
  | moveTo (point : Point Float)
  | lineTo (point : Point Float)
  /-- A line to the right, or to the left if it is negative. -/
  | across (distance : Float)
  /-- A line downwards, or upwards if it is negative. -/
  | down (distance : Float)
  /-- A line back to where the part was begun. -/
  | close
deriving DecidableEq, Repr

/-- The double that is not a number. -/
def notANumber : Float := .ofBits 0x7FF8000000000000

/-- The number of digits, perhaps with a point and more digits. -/
def decimal? (negative : Bool) (digits : List Char) : Option Float :=
  let whole := digits.takeWhile Char.isDigit
  if whole.isEmpty then none
  else match digits.drop whole.length with
    | [] => some (Numeral.ofDecimal negative (digitsValue whole) 0)
    | '.' :: fraction =>
      if fraction.isEmpty || !fraction.all Char.isDigit then none
      else some (Numeral.ofDecimal negative (digitsValue (whole ++ fraction)) fraction.length)
    | _ => none

/-- The double of a word behind its sign. -/
def unsigned? (negative : Bool) : List Char → Option Float
  | ['i', 'n', 'f'] => some (if negative then -infinity else infinity)
  | digits => decimal? negative digits

/-- **The double that a word stands for.** -/
def number? : List Char → Option Float
  | ['N', 'a', 'N'] => some notANumber
  | '-' :: word => unsigned? true word
  | word => unsigned? false word

/-- The commands of words. -/
def strokes? : List (List Char) → Option (List Stroke)
  | [] => some []
  | ['Z'] :: rest => (strokes? rest).map (.close :: ·)
  | ('h' :: x) :: rest => (number? x).bind fun x => (strokes? rest).map (.across x :: ·)
  | ('v' :: y) :: rest => (number? y).bind fun y => (strokes? rest).map (.down y :: ·)
  | ('M' :: x) :: y :: rest => (number? x).bind fun x =>
      (number? y).bind fun y => (strokes? rest).map (.moveTo ⟨x, y⟩ :: ·)
  | ('L' :: x) :: y :: rest => (number? x).bind fun x =>
      (number? y).bind fun y => (strokes? rest).map (.lineTo ⟨x, y⟩ :: ·)
  | _ => none

/-- **The commands of path data**, which are made of words with blanks between them. -/
def read (text : String) : Option (List Stroke) := strokes? (text.toList.splitOn ' ')

example : read "M5 -0.5 h20 v10 h-20 Z L1 2" =
    some [.moveTo ⟨5, -0.5⟩, .across 20, .down 10, .across (-20), .close, .lineTo ⟨1, 2⟩] := by
  decide +kernel

/-! ### Numbers -/

variable {l : Literal}

theorem decimal?_literal (l : Literal) :
    decimal? l.negative (l.whole ++ if l.fraction.isEmpty then [] else '.' :: l.fraction) =
      some (l.read Float) := by
  have hwhole : ∀ c ∈ l.whole, c.isDigit = true :=
    fun c hc => l.isDigit c (List.mem_append_left _ hc)
  have hstops : Stops Char.isDigit (if l.fraction.isEmpty then [] else '.' :: l.fraction) := by
    split
    · simp [Stops]
    · exact stops_cons.2 rfl
  have hne : ¬l.whole.isEmpty = true := by simp [l.whole_ne_nil]
  simp only [decimal?, takeWhile_append_of_stops hwhole hstops, List.drop_left, if_neg hne]
  by_cases hfraction : l.fraction = []
  · simp [hfraction, Literal.read]
  · have hall : l.fraction.all Char.isDigit = true :=
      List.all_eq_true.2 fun c hc => l.isDigit c (List.mem_append_right _ hc)
    simp [hfraction, hall, Literal.read]

/-- A word that begins with a digit is a decimal. -/
theorem unsigned?_of_isDigit {d : Char} (hd : d.isDigit = true) (negative : Bool)
    (digits : List Char) : unsigned? negative (d :: digits) = decimal? negative (d :: digits) := by
  unfold unsigned?
  split
  · rename_i heq
    obtain ⟨rfl, -⟩ := List.cons.inj heq
    simp at hd
  · rfl

theorem number?_of_isDigit {d : Char} (hd : d.isDigit = true) (digits : List Char) :
    number? (d :: digits) = unsigned? false (d :: digits) := by
  unfold number?
  split
  · rename_i heq
    obtain ⟨rfl, -⟩ := List.cons.inj heq
    simp at hd
  · rename_i heq
    obtain ⟨rfl, -⟩ := List.cons.inj heq
    simp at hd
  · rfl

/-- A literal is read as its number. -/
theorem number?_literal (l : Literal) : number? l.text.toList = some (l.read Float) := by
  obtain ⟨d, digits, hwhole⟩ := List.exists_cons_of_ne_nil l.whole_ne_nil
  have hd : d.isDigit = true := l.isDigit d (by simp [hwhole])
  have hdecimal := decimal?_literal l
  rw [Literal.text, String.toList_ofList, Lexeme.numberText, List.append_assoc]
  rw [hwhole, List.cons_append] at hdecimal ⊢
  cases hnegative : l.negative <;> rw [hnegative] at hdecimal
  · exact (number?_of_isDigit hd _).trans ((unsigned?_of_isDigit hd _ _).trans hdecimal)
  · exact (unsigned?_of_isDigit hd _ _).trans hdecimal

/-- The text of a double is one of two words, perhaps with a sign, or a literal. -/
theorem plain_cases (x : Float) :
    (Numeral.plain x = "NaN" ∧ notANumber = x) ∨
      (∃ negative, Numeral.plain x = Decimal.signText negative ++ "inf" ∧
        (if negative then -infinity else infinity) = x) ∨
      ∃ l : Literal, Numeral.plain x = l.text ∧ l.read Float = x := by
  have hplain : Numeral.plain x = Decimal.plain (.ofFloat x) := rfl
  cases hx : Decimal.Binary.ofFloat x with
  | nan =>
    refine .inl ⟨by rw [hplain, hx, Decimal.plain], ?_⟩
    exact Decimal.ofFloat_injective (Eq.trans (by decide +kernel) hx.symm)
  | infinite negative =>
    refine .inr (.inl ⟨negative, by rw [hplain, hx, Decimal.plain], ?_⟩)
    exact Decimal.ofFloat_injective (Eq.trans (by cases negative <;> decide +kernel) hx.symm)
  | finite negative m e =>
    obtain ⟨l, htext, hread⟩ := Literal.exists_plain ((Decimal.isFinite_iff x).2 ⟨_, _, _, hx⟩)
    exact .inr (.inr ⟨l, htext.symm, hread⟩)

/-- **Every double is read back from its text.** -/
theorem number?_plain (x : Float) : number? (Numeral.plain x).toList = some x := by
  rcases plain_cases x with ⟨htext, rfl⟩ | ⟨negative, htext, rfl⟩ | ⟨l, htext, rfl⟩
  · rw [htext]
    rfl
  · rw [htext]
    cases negative <;> rfl
  · rw [htext, number?_literal]

/-- There is no blank in the text of a double. -/
theorem blank_not_mem_plain (x : Float) : ' ' ∉ (Numeral.plain x).toList := by
  rcases plain_cases x with ⟨htext, -⟩ | ⟨negative, htext, -⟩ | ⟨l, htext, -⟩
  · rw [htext]
    decide +kernel
  · rw [htext]
    cases negative <;> decide +kernel
  · rw [htext]
    exact l.blank_not_mem_text

/-! ### Paths -/

end PathData

open PathData (Stroke)

/-- **What a part of a path is drawn with**: one point, or a line to the right, downwards and to the
left that is closed. -/
def PathStep.strokes : PathStep Float → List Stroke
  | move p => [.moveTo p]
  | line p => [.lineTo p]
  | outline r =>
    [.moveTo ⟨r.left, r.top⟩, .across r.size.width, .down r.size.height, .across (-r.size.width),
      .close]

/-- The words that a part of a path is written with. -/
def PathStep.words : PathStep Float → List (List Char)
  | move p => ['M' :: (Numeral.plain p.x).toList, (Numeral.plain p.y).toList]
  | line p => ['L' :: (Numeral.plain p.x).toList, (Numeral.plain p.y).toList]
  | outline r =>
    ['M' :: (Numeral.plain r.left).toList, (Numeral.plain r.top).toList,
      'h' :: (Numeral.plain r.size.width).toList, 'v' :: (Numeral.plain r.size.height).toList,
      'h' :: (Numeral.plain (-r.size.width)).toList, ['Z']]

namespace PathData

variable {steps : List (PathStep Float)}

theorem words_ne_nil (step : PathStep Float) : step.words ≠ [] := by
  cases step <;> exact List.cons_ne_nil _ _

theorem toList_text (step : PathStep Float) : step.text.toList = [' '].intercalate step.words := by
  cases step <;> simp [PathStep.text, PathStep.words, List.intercalate, List.intersperse]

theorem blank_not_mem_words (step : PathStep Float) : ∀ w ∈ step.words, ' ' ∉ w := by
  cases step <;> simp [PathStep.words, blank_not_mem_plain]

/-- The words of a part are read as this part. -/
theorem strokes?_words (step : PathStep Float) (rest : List (List Char)) :
    strokes? (step.words ++ rest) = (strokes? rest).map (step.strokes ++ ·) := by
  cases step <;>
    simp [PathStep.words, PathStep.strokes, strokes?, number?_plain, Function.comp_def]

theorem strokes?_flatMap (steps : List (PathStep Float)) :
    strokes? (steps.flatMap PathStep.words) = some (steps.flatMap PathStep.strokes) := by
  induction steps with
  | nil => rfl
  | cons step steps ih =>
    rw [List.flatMap_cons, strokes?_words, ih, Option.map_some, List.flatMap_cons]

theorem append_intercalate {sep : List Char} {words : List (List Char)} (h : words ≠ []) :
    sep ++ sep.intercalate words = words.flatMap (sep ++ ·) := by
  induction words with
  | nil => exact absurd rfl h
  | cons w words ih =>
    cases words with
    | nil => simp
    | cons w' words =>
      rw [List.intercalate_cons_cons, List.flatMap_cons, ← ih (List.cons_ne_nil _ _)]
      simp only [List.append_assoc]

/-- Words with blanks between them, written part by part. -/
theorem intercalate_flatMap {β : Type} {sep : List Char} {f : β → List (List Char)}
    {items : List β} (hf : ∀ b, f b ≠ []) (h : items.flatMap f ≠ []) :
    sep.intercalate (items.map fun b => sep.intercalate (f b)) =
      sep.intercalate (items.flatMap f) := by
  have hitems : items ≠ [] := fun hnil => h (by rw [hnil, List.flatMap_nil])
  refine (List.append_right_inj sep).1 ?_
  calc sep ++ sep.intercalate (items.map fun b => sep.intercalate (f b))
      = items.flatMap fun b => sep ++ sep.intercalate (f b) := by
        rw [append_intercalate (by simpa using hitems), List.flatMap_map]
    _ = (items.flatMap f).flatMap (sep ++ ·) := by
        rw [List.flatMap_assoc]
        simp only [append_intercalate (hf _)]
    _ = sep ++ sep.intercalate (items.flatMap f) := (append_intercalate h).symm

/-- **The data of a path are read as its parts.** -/
theorem read_pathData (h : steps ≠ []) :
    read (" ".intercalate (steps.map PathStep.text)) = some (steps.flatMap PathStep.strokes) := by
  have hne : steps.flatMap PathStep.words ≠ [] := by
    obtain ⟨step, rest, rfl⟩ := List.exists_cons_of_ne_nil h
    simp [words_ne_nil]
  have hwords : (" ".intercalate (steps.map PathStep.text)).toList =
      [' '].intercalate (steps.flatMap PathStep.words) := by
    rw [String.toList_intercalate, List.map_map, ← intercalate_flatMap words_ne_nil hne]
    exact congrArg _ (List.map_congr_left fun step _ => toList_text step)
  have hblank : ∀ w ∈ steps.flatMap PathStep.words, ' ' ∉ w := by
    intro w hw
    obtain ⟨step, -, hw⟩ := List.mem_flatMap.1 hw
    exact blank_not_mem_words step w hw
  rw [read, hwords, List.splitOn_intercalate ' ' hblank hne, strokes?_flatMap]

end PathData
end Schematic
