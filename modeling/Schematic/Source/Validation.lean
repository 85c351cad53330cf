import Schematic.Source.Lexing
import Schematic.Source.Linear

/-!
# Valid equations

An equation has one relation with a linear side on either hand. Parts are split at
the relation; a comment ends them.

* `Equation.ofParts`: the equation that parts make up, or why they make up none.
* `Equation.ofText`: the equation that a text of its own spells.
* `readParts`: the parts at the head of a list of tokens.
-/

namespace Schematic

/-- Why parts make up no equation. -/
inductive EquationFault (α : Type) where
  | secondRelation
  | missingLeft
  | earlyComment
  | missingRelation
  | missingRight
  | side (fault : SideFault)
  /-- A dot without a name after it. -/
  | nameExpected
  /-- A token that is no part of an equation. -/
  | token (token : Token α)
  /-- Characters that are no tokens. -/
  | stray
deriving DecidableEq, Repr

/-- The fault in words. -/
def EquationFault.message {α : Type} [Numeral α] : EquationFault α → String
  | secondRelation => "more than one relation"
  | missingLeft => "missing left-hand side"
  | earlyComment => "comment before relation"
  | missingRelation => "missing relation"
  | missingRight => "missing right-hand side"
  | side fault => fault.message
  | nameExpected => "expected a name after '.'"
  | token t => "unexpected token " ++ t.constructorText
  | stray => "unrecognized input"

/-- A fault and the parts it was found in. -/
structure MalformedEquation (α : Type) where
  parts : List (Part α)
  fault : EquationFault α
deriving DecidableEq, Repr

/-- The error in words. -/
def MalformedEquation.message {α : Type} [Numeral α] (e : MalformedEquation α) : String :=
  "invalid equation `" ++ Part.listText e.parts ++ "`: " ++ e.fault.message

theorem except_bind_eq_ok {ε β γ : Type} {x : Except ε β} {f : β → Except ε γ} {c : γ} :
    x >>= f = .ok c ↔ ∃ b, x = .ok b ∧ f b = .ok c := by
  cases x <;> simp [bind, Except.bind]

theorem except_map_eq_ok {ε β γ : Type} {x : Except ε β} {f : β → γ} {c : γ} :
    x.map f = .ok c ↔ ∃ b, x = .ok b ∧ f b = c := by
  cases x <;> simp [Except.map]

namespace Equation

variable {α : Type}

/-- The terms before the first relation, the relation and the parts after it. -/
def splitLeft : List (Part α) → Except (EquationFault α) (List (Term α) × Relation × List (Part α))
  | [] => .error .missingRelation
  | .comment _ :: _ => .error .earlyComment
  | .relation r :: rest => .ok ([], r, rest)
  | .term t :: rest => (splitLeft rest).map fun (left, r, right) => (t :: left, r, right)

/-- The terms after the relation, up to the comment. -/
def splitRight : List (Part α) → Except (EquationFault α) (List (Term α) × Option String)
  | [] => .ok ([], none)
  | .comment text :: _ => .ok ([], some text)
  | .relation _ :: _ => .error .secondRelation
  | .term t :: rest => (splitRight rest).map fun (right, comment) => (t :: right, comment)

/-- Whether a side is linear. -/
def checkSide [Scalar α] (side : List (Term α)) : Except (EquationFault α) Unit :=
  match (Side.fold side).result with
  | .ok _ => .ok ()
  | .error fault => .error (.side fault)

/-- The equation that parts make up, without the parts in the error. -/
def assemble [Scalar α] (parts : List (Part α)) : Except (EquationFault α) (Equation α) := do
  let (left, relation, rest) ← splitLeft parts
  if left.isEmpty then throw .missingLeft
  let (right, comment) ← splitRight rest
  if right.isEmpty then throw .missingRight
  checkSide left
  checkSide right
  return ⟨relation, left, right, comment⟩

/-- **The equation** that parts make up. -/
def ofParts [Scalar α] (parts : List (Part α)) : Except (MalformedEquation α) (Equation α) :=
  (assemble parts).mapError (⟨parts, ·⟩)

end Equation

section Reading

variable {α : Type}

/-- The names after dots at the head of tokens, and the tokens after them. A dot that
no name follows is left. -/
def readTail : List (Located (Token α)) → List String × List (Located (Token α))
  | ⟨.dot, _⟩ :: ⟨.name segment, _⟩ :: rest =>
    let (tail, after) := readTail rest
    (segment :: tail, after)
  | rest => ([], rest)

theorem readTail_length (ts : List (Located (Token α))) :
    (readTail ts).2.length ≤ ts.length := by
  fun_induction readTail ts with
  | case1 s seg s' rest tail after h ih => simp_all; omega
  | case2 => simp

/-- The parts at the head of tokens, as many as there are, and the tokens after them.
Comments are left. -/
def readParts : List (Located (Token α)) → List (Part α) × List (Located (Token α))
  | [] => ([], [])
  | t :: rest =>
    match t.value, Part.ofToken? t.value with
    | .name head, _ =>
      let (parts, after) := readParts (readTail rest).2
      (.term (.reference ⟨head, (readTail rest).1⟩) :: parts, after)
    | _, some part =>
      let (parts, after) := readParts rest
      (part :: parts, after)
    | _, none => ([], t :: rest)
termination_by ts => ts.length
decreasing_by
  · have := readTail_length rest
    simp_wf
    omega
  · simp_wf

theorem readParts_length (ts : List (Located (Token α))) :
    (readParts ts).2.length ≤ ts.length := by
  fun_induction readParts ts with
  | case1 => simp
  | case2 t rest =>
    have := readTail_length rest
    simp_all
    omega
  | case3 => simp_all; omega
  | case4 => simp

/-- Whether parts end with a reference, so that a dot after them lacks a name. -/
def endsWithReference (parts : List (Part α)) : Bool :=
  match parts.getLast? with
  | some (.term (.reference _)) => true
  | _ => false

/-- The parts that all the tokens of a text make up. -/
def allParts (tokens : List (Located (Token α))) : Except (MalformedEquation α) (List (Part α)) :=
  let (parts, rest) := readParts tokens
  match rest with
  | [] => .ok parts
  | ⟨.comment text, _⟩ :: [] => .ok (parts ++ [.comment text])
  | ⟨.comment text, _⟩ :: next :: _ => .error ⟨parts ++ [.comment text], .token next.value⟩
  | ⟨.dot, _⟩ :: _ =>
    if endsWithReference parts then .error ⟨parts.dropLast, .nameExpected⟩
    else .error ⟨parts, .token .dot⟩
  | next :: _ => .error ⟨parts, .token next.value⟩

/-- **The equation** that a text spells, such as `a.left == b.right + 30`. -/
def Equation.ofText [Scalar α] [Numeral α] (text : String) :
    Except (MalformedEquation α) (Equation α) := do
  match lex (α := α) text with
  | .error _ => throw ⟨[], .stray⟩
  | .ok tokens => Equation.ofParts (← allParts tokens)

end Reading

end Schematic
