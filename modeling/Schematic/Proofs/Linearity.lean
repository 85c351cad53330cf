import Schematic.Proofs.Rereading

/-!
# Linear sides

Which sides of an equation have a linear expression, said without folding them: operands
with operations between them, a constant after every division sign, and after a
multiplication sign a constant or the first reference of the side.

* `Side.Linear`: the linear sides.
* `Side.exists_fold_iff`: a side has an expression if and only if it is linear.
* `Equation.ofParts_linear`: the parts that make up an equation, the parts of that equation,
  and the parts that an error carries.
-/

namespace Schematic

variable {α : Type}

/-! ### What makes a side linear -/

/-- A constant. -/
def Term.IsConstant : Term α → Prop
  | .constant _ => True
  | .reference _ | .operation _ => False

/-- A reference. -/
def Term.IsReference : Term α → Prop
  | .reference _ => True
  | .constant _ | .operation _ => False

/-- A constant other than zero. -/
def Term.IsDivisor [Scalar α] : Term α → Prop
  | .constant c => (c == Scalar.zero) = false
  | .reference _ | .operation _ => False

/-- An operand: a constant or a reference. -/
def Term.IsOperand (t : Term α) : Prop := t.IsConstant ∨ t.IsReference

theorem Term.not_isOperand_operation {op : Operation} : ¬(Term.operation op : Term α).IsOperand := by
  simp [IsOperand, IsConstant, IsReference]

/-- Operations, each with the term after it, as they stand in a side. -/
def Side.links (pairs : List (Operation × Term α)) : List (Term α) :=
  pairs.flatMap fun (op, t) => [.operation op, t]

/-- **A linear side.** -/
structure Side.Linear [Scalar α] (side : List (Term α)) : Prop where
  /-- Operands stand at both ends and on either hand of every operation. -/
  alternates : ∃ first pairs, first.IsOperand ∧ (∀ p ∈ pairs, p.2.IsOperand) ∧
    side = first :: Side.links pairs
  /-- What is divided by is a constant other than zero. -/
  divisor : ∀ before t after, side = before ++ .operation .divide :: t :: after → t.IsDivisor
  /-- What is multiplied by is a constant, or the first reference of the side. -/
  factor : ∀ before t after, side = before ++ .operation .multiply :: t :: after →
    t.IsConstant ∨ t.IsReference ∧ ∀ u ∈ before, ¬u.IsReference

/-- Whether a reference has been read. -/
def Running.HasReference : Running α → Prop
  | .constant _ => False
  | .linear _ => True

namespace Side

@[simp] theorem links_nil : links ([] : List (Operation × Term α)) = [] := rfl

@[simp] theorem links_cons (p : Operation × Term α) (pairs : List (Operation × Term α)) :
    links (p :: pairs) = .operation p.1 :: p.2 :: links pairs := rfl

variable [Scalar α]

/-- Whether a term may follow an operation. `seen` says that a reference stands before. -/
def Follows (seen : Prop) : Operation → Term α → Prop
  | .divide, t => t.IsDivisor
  | .multiply, t => t.IsConstant ∨ t.IsReference ∧ ¬seen
  | .add, t | .subtract, t => t.IsOperand

/-- What may stand after an operand, read from left to right. -/
def Linked (seen : Prop) : List (Term α) → Prop
  | [] => True
  | .operation op :: t :: rest => Follows seen op t ∧ Linked (seen ∨ t.IsReference) rest
  | _ => False

theorem Follows.isOperand {seen : Prop} {op : Operation} {t : Term α} (h : Follows seen op t) :
    t.IsOperand := by
  cases op with
  | add | subtract => exact h
  | multiply => exact h.imp_right And.left
  | divide =>
    cases t with
    | constant c => exact .inl trivial
    | reference r | operation op => exact h.elim

/-! ### Reading from left to right -/

omit [Scalar α] in
theorem exists_mem_links {P : Term α → Prop} (hop : ∀ op, ¬P (.operation op))
    {pairs : List (Operation × Term α)} : (∃ t ∈ links pairs, P t) ↔ ∃ p ∈ pairs, P p.2 := by
  induction pairs with
  | nil => simp
  | cons p pairs ih => simp [ih, hop]

omit [Scalar α] in
/-- An operation inside of a side is that of a pair, and what stands before it are pairs. -/
theorem exists_of_links_eq {pairs : List (Operation × Term α)} {before after : List (Term α)}
    {op : Operation} {t : Term α} (hpairs : ∀ p ∈ pairs, p.2.IsOperand)
    (h : links pairs = before ++ .operation op :: t :: after) :
    ∃ pre post, pairs = pre ++ (op, t) :: post ∧ before = links pre := by
  induction pairs generalizing before with
  | nil => simp at h
  | cons p pairs ih =>
    obtain ⟨hp, hall⟩ := List.forall_mem_cons.1 hpairs
    obtain ⟨op', t'⟩ := p
    match before, h with
    | [], h =>
      simp only [links_cons, List.nil_append, List.cons.injEq, Term.operation.injEq] at h
      obtain ⟨rfl, rfl, -⟩ := h
      exact ⟨[], pairs, rfl, rfl⟩
    | [_], h =>
      -- a pair would have an operation for its operand
      simp only [links_cons, List.cons_append, List.nil_append, List.cons.injEq] at h
      obtain ⟨-, rfl, -⟩ := h
      exact absurd hp Term.not_isOperand_operation
    | u :: v :: before, h =>
      simp only [links_cons, List.cons_append, List.cons.injEq] at h
      obtain ⟨rfl, rfl, h⟩ := h
      obtain ⟨pre, post, rfl, rfl⟩ := ih hall h
      exact ⟨(op', t') :: pre, post, rfl, rfl⟩

theorem exists_links_of_linked {seen : Prop} {rest : List (Term α)} (h : Linked seen rest) :
    ∃ pairs, (∀ p ∈ pairs, p.2.IsOperand) ∧ rest = links pairs := by
  fun_induction Linked seen rest with
  | case1 => exact ⟨[], by simp, rfl⟩
  | case2 seen op t rest ih =>
    obtain ⟨hfits, hrest⟩ := h
    obtain ⟨pairs, hpairs, rfl⟩ := ih hrest
    exact ⟨(op, t) :: pairs, List.forall_mem_cons.2 ⟨hfits.isOperand, hpairs⟩, rfl⟩
  | case3 => exact h.elim

/-- **Read from left to right**, every operand has to fit the references before it. -/
theorem linked_links_iff {seen : Prop} {pairs : List (Operation × Term α)} :
    Linked seen (links pairs) ↔ ∀ pre op t post, pairs = pre ++ (op, t) :: post →
      Follows (seen ∨ ∃ p ∈ pre, p.2.IsReference) op t := by
  induction pairs generalizing seen with
  | nil => simp [Linked]
  | cons p pairs ih =>
    have hseen : ∀ pre : List (Operation × Term α),
        (seen ∨ ∃ q ∈ p :: pre, q.2.IsReference) =
          ((seen ∨ p.2.IsReference) ∨ ∃ q ∈ pre, q.2.IsReference) := by
      intro pre
      simp [or_assoc]
    rw [links_cons, Linked, ih]
    constructor
    · rintro ⟨hfits, hrest⟩ pre op t post heq
      rcases List.cons_eq_append_iff.1 heq with ⟨rfl, heq⟩ | ⟨pre, rfl, heq'⟩
      · obtain ⟨rfl, -⟩ := List.cons.inj heq
        simpa using hfits
      · rw [hseen]
        exact hrest pre op t post heq'
    · intro h
      refine ⟨by simpa using h [] p.1 p.2 pairs rfl, fun pre op t post heq => ?_⟩
      have hthere := h (p :: pre) op t post (by rw [heq, List.cons_append])
      rwa [hseen] at hthere

/-- A side is linear if what stands after its first operand fits it. -/
theorem linear_cons_iff {first : Term α} {rest : List (Term α)} :
    Linear (first :: rest) ↔ first.IsOperand ∧ Linked first.IsReference rest := by
  constructor
  · rintro ⟨⟨first', pairs, hfirst, hpairs, heq⟩, hdivisor, hfactor⟩
    obtain ⟨rfl, rfl⟩ := List.cons.inj heq
    refine ⟨hfirst, linked_links_iff.2 fun pre op t post hpost => ?_⟩
    have hside : first :: links pairs = (first :: links pre) ++ .operation op :: t :: links post := by
      rw [hpost]
      simp [links]
    cases op with
    | add => exact hpairs (.add, t) (by simp [hpost])
    | subtract => exact hpairs (.subtract, t) (by simp [hpost])
    | divide => exact hdivisor _ _ _ hside
    | multiply =>
      refine (hfactor _ _ _ hside).imp_right fun ⟨ht, hbefore⟩ => ⟨ht, ?_⟩
      rintro (hseen | hseen)
      · exact hbefore first List.mem_cons_self hseen
      · obtain ⟨u, hu, hseen⟩ := (exists_mem_links fun _ => id).2 hseen
        exact hbefore u (List.mem_cons_of_mem _ hu) hseen
  · rintro ⟨hfirst, hlinked⟩
    obtain ⟨pairs, hpairs, rfl⟩ := exists_links_of_linked hlinked
    have hfollows : ∀ before op t after,
        first :: links pairs = before ++ .operation op :: t :: after →
        Follows (∃ u ∈ before, u.IsReference) op t := by
      intro before op t after heq
      rcases List.cons_eq_append_iff.1 heq with ⟨rfl, heq⟩ | ⟨before, rfl, heq'⟩
      · obtain ⟨rfl, -⟩ := List.cons.inj heq
        exact absurd hfirst Term.not_isOperand_operation
      · obtain ⟨pre, post, rfl, rfl⟩ := exists_of_links_eq hpairs heq'
        have hthere := linked_links_iff.1 hlinked pre op t post rfl
        rw [← exists_mem_links fun _ => id] at hthere
        simpa using hthere
    refine ⟨⟨first, pairs, hfirst, hpairs, rfl⟩, fun before t after heq => ?_,
      fun before t after heq => ?_⟩
    · exact hfollows before .divide t after heq
    · refine (hfollows before .multiply t after heq).imp_right fun ⟨ht, hbefore⟩ => ⟨ht, ?_⟩
      exact fun u hu hseen => hbefore ⟨u, hu, hseen⟩

theorem Linear.ne_nil {side : List (Term α)} (h : Linear side) : side ≠ [] := by
  obtain ⟨first, pairs, -, -, rfl⟩ := h.alternates
  exact List.cons_ne_nil _ _

/-! ### Folding -/

theorem exists_withConstant_iff {value : Running α} {op : Operation} {c : α} :
    (∃ next, withConstant value op c = .ok next) ↔
      Follows value.HasReference op (.constant c) := by
  by_cases hc : c == Scalar.zero <;> cases value <;> cases op <;>
    simp [withConstant, Follows, Term.IsConstant, Term.IsDivisor, Term.IsOperand, hc]

theorem exists_withReference_iff {value : Running α} {op : Operation} {name : Reference} :
    (∃ e, withReference value op name = .ok e) ↔
      Follows value.HasReference op (.reference name : Term α) := by
  cases value <;> cases op <;>
    simp [withReference, Follows, Term.IsConstant, Term.IsReference, Term.IsDivisor,
      Term.IsOperand, Running.HasReference]

/-- A constant makes no reference of a constant, nor loses one. -/
theorem withConstant_hasReference {value next : Running α} {op : Operation} {c : α}
    (h : withConstant value op c = .ok next) : next.HasReference ↔ value.HasReference := by
  unfold withConstant at h
  split at h
  all_goals first
    | (split at h <;> cases h <;> rfl)
    | (cases h; rfl)

/-- **Folding goes on** as long as every term fits what was read before it. -/
theorem exists_foldFrom_iff (value : Running α) (terms : List (Term α)) :
    (∃ e, (foldFrom value terms).result = .ok e) ↔ Linked value.HasReference terms := by
  fun_induction foldFrom value terms with
  | case1 value => simp [Linked]
  | case2 value op c rest next hnext ih =>
    have hfits := exists_withConstant_iff.1 ⟨next, hnext⟩
    have hseen : next.HasReference = (value.HasReference ∨ (Term.constant c).IsReference) := by
      simpa [Term.IsReference] using withConstant_hasReference hnext
    rw [ih, hseen]
    exact (and_iff_right hfits).symm
  | case3 value op c rest fault hfault =>
    have hfits : ¬Follows value.HasReference op (.constant c) := by
      rw [← exists_withConstant_iff]
      simp [hfault]
    simp [Linked, hfits]
  | case4 value op name rest asked e he folded ih =>
    have hfits := exists_withReference_iff.1 ⟨e, he⟩
    have hseen : (Running.linear e).HasReference =
        (value.HasReference ∨ (Term.reference name : Term α).IsReference) := by
      simp [Running.HasReference, Term.IsReference]
    rw [hseen] at ih
    exact ih.trans (and_iff_right hfits).symm
  | case5 value op name rest asked fault hfault =>
    have hfits : ¬Follows value.HasReference op (.reference name : Term α) := by
      rw [← exists_withReference_iff]
      simp [hfault]
    simp [Linked, hfits]
  | case6 value op op' rest =>
    have hfits : ¬Follows value.HasReference op (.operation op' : Term α) :=
      fun h => Term.not_isOperand_operation h.isOperand
    simp [Linked, hfits]
  | case7 => simp [Linked]
  | case8 => simp [Linked]
  | case9 => simp [Linked]

/-- **The sides that have an expression** are the linear ones. -/
theorem exists_fold_iff {side : List (Term α)} :
    (∃ e, (fold side).result = .ok e) ↔ Linear side := by
  cases side with
  | nil =>
    have hempty : ¬Linear ([] : List (Term α)) := by
      rintro ⟨⟨first, pairs, -, -, heq⟩, -, -⟩
      simp at heq
    simp [fold, hempty]
  | cons first rest =>
    rw [linear_cons_iff]
    cases first with
    | operation op => simp [fold, Term.not_isOperand_operation]
    | constant c =>
      have hoperand : (Term.constant c).IsOperand := .inl trivial
      exact (exists_foldFrom_iff (.constant c) rest).trans (and_iff_right hoperand).symm
    | reference name =>
      have hoperand : (Term.reference name : Term α).IsOperand := .inr trivial
      exact (exists_foldFrom_iff (.linear (.ofKey name)) rest).trans (and_iff_right hoperand).symm

end Side

/-! ### Equations -/

/-- Whether a part is a comment. -/
def Part.isComment : Part α → Bool
  | .comment _ => true
  | .term _ | .relation _ => false

/-- The parts before the first comment, or all of them. -/
def Part.beforeComment (parts : List (Part α)) : List (Part α) := parts.takeWhile (!·.isComment)

/-- The parts up to and with the first comment, or all of them. -/
def Part.throughComment (parts : List (Part α)) : List (Part α) :=
  beforeComment parts ++ (parts.dropWhile (!·.isComment)).take 1

/-- **Parts of an equation**: two linear sides with one relation between them. -/
def Part.Related [Scalar α] (parts : List (Part α)) : Prop :=
  ∃ left relation right, parts = left.map .term ++ .relation relation :: right.map .term ∧
    Side.Linear left ∧ Side.Linear right

namespace Part

@[simp] theorem throughComment_nil : throughComment ([] : List (Part α)) = [] := rfl

@[simp] theorem throughComment_comment {text : String} {parts : List (Part α)} :
    throughComment (.comment text :: parts) = [.comment text] := rfl

theorem throughComment_append {first parts : List (Part α)} (h : ∀ p ∈ first, p.isComment = false) :
    throughComment (first ++ parts) = first ++ throughComment parts := by
  have hall : ∀ p ∈ first, (!p.isComment) = true := fun p hp => by simp [h p hp]
  rw [throughComment, beforeComment, List.takeWhile_append_of_pos hall,
    List.dropWhile_append_of_pos hall, throughComment, beforeComment, List.append_assoc]

theorem throughComment_cons {p : Part α} {parts : List (Part α)} (h : p.isComment = false) :
    throughComment (p :: parts) = p :: throughComment parts := by
  have hfirst : ∀ q ∈ [p], q.isComment = false := by simpa using h
  exact throughComment_append hfirst

/-- Behind the comment nothing counts, and without one nothing is left out. -/
theorem exists_throughComment_eq (parts : List (Part α)) :
    ∃ comment : Option String,
      throughComment parts = beforeComment parts ++ (comment.map .comment).toList := by
  cases hrest : parts.dropWhile (!·.isComment) with
  | nil => exact ⟨none, by simp [throughComment, hrest]⟩
  | cons p rest =>
    have hp : (parts.dropWhile (!·.isComment)).head? = some p := by rw [hrest, List.head?_cons]
    have hcomment := List.head?_dropWhile_not (!·.isComment) parts
    rw [hp] at hcomment
    cases p with
    | comment text => exact ⟨some text, by simp [throughComment, hrest]⟩
    | term t => simp [isComment] at hcomment
    | relation r => simp [isComment] at hcomment

theorem throughComment_prefix (parts : List (Part α)) : throughComment parts <+: parts := by
  refine ⟨(parts.dropWhile (!·.isComment)).drop 1, ?_⟩
  rw [throughComment, beforeComment, List.append_assoc, List.take_append_drop,
    List.takeWhile_append_dropWhile]

theorem beforeComment_append_comment {first : List (Part α)} {comment : Option String}
    (h : ∀ p ∈ first, p.isComment = false) :
    beforeComment (first ++ (comment.map .comment).toList) = first := by
  have hall : ∀ p ∈ first, (!p.isComment) = true := fun p hp => by simp [h p hp]
  rw [beforeComment, List.takeWhile_append_of_pos hall]
  cases comment <;> simp [isComment]

theorem beforeComment_throughComment (parts : List (Part α)) :
    beforeComment (throughComment parts) = beforeComment parts := by
  obtain ⟨comment, hcomment⟩ := exists_throughComment_eq parts
  rw [hcomment]
  refine beforeComment_append_comment fun p hp => ?_
  simpa using List.mem_takeWhile_imp hp

end Part

namespace Equation

/-- The right side of an equation goes on to the first comment. -/
theorem splitRight_eq_ok_iff {parts : List (Part α)} {right : List (Term α)}
    {comment : Option String} : splitRight parts = .ok (right, comment) ↔
      Part.throughComment parts = right.map .term ++ (comment.map .comment).toList := by
  fun_induction splitRight parts generalizing right with
  | case1 => cases right <;> cases comment <;> simp
  | case2 text parts => cases right <;> cases comment <;> simp
  | case3 r parts =>
    rw [Part.throughComment_cons rfl]
    cases right <;> cases comment <;> simp
  | case4 t parts ih =>
    rw [except_map_eq_ok, Part.throughComment_cons rfl]
    constructor
    · rintro ⟨⟨right', comment'⟩, hsplit, heq⟩
      obtain ⟨rfl, rfl⟩ := Prod.mk.inj heq
      rw [ih.1 hsplit, List.map_cons, List.cons_append]
    · intro heq
      cases right with
      | nil => cases comment <;> simp at heq
      | cons t' right =>
        simp only [List.map_cons, List.cons_append, List.cons.injEq, Part.term.injEq] at heq
        obtain ⟨rfl, heq⟩ := heq
        exact ⟨_, ih.2 heq, rfl⟩

theorem isComment_of_mem_sides {e : Equation α} : ∀ p ∈ e.sides, p.isComment = false := by
  intro p hp
  have hne := ne_comment_of_mem_sides p hp
  cases p with
  | comment text => exact absurd rfl (hne text)
  | term t | relation r => rfl

variable [Scalar α]

theorem checkSide_eq_ok_iff {side : List (Term α)} : checkSide side = .ok () ↔ Side.Linear side := by
  rw [← Side.exists_fold_iff, checkSide]
  split <;> simp_all

/-- **When parts make up an equation**: its parts are those up to the comment, and its sides
are linear. -/
theorem ofParts_eq_ok_iff {parts : List (Part α)} {e : Equation α} : ofParts parts = .ok e ↔
    Part.throughComment parts = e.parts ∧ Side.Linear e.left ∧ Side.Linear e.right := by
  rw [ofParts_eq_ok, assemble_eq_ok_iff]
  simp only [checkSide_eq_ok_iff, splitLeft_eq_ok, splitRight_eq_ok_iff]
  -- what stands up to the relation holds no comment, so it can be cut off on either hand
  obtain ⟨opening, hopening⟩ : ∃ opening : List (Part α),
    opening = e.left.map .term ++ [.relation e.relation] := ⟨_, rfl⟩
  have hcut : ∀ rest, e.left.map .term ++ .relation e.relation :: rest = opening ++ rest := by
    intro rest
    rw [hopening, List.append_assoc, List.singleton_append]
  have hcomment : ∀ p ∈ opening, p.isComment = false := by
    intro p hp
    rw [hopening, List.mem_append, List.mem_map, List.mem_singleton] at hp
    rcases hp with ⟨t, -, rfl⟩ | rfl <;> rfl
  have hparts : e.parts = opening ++ (e.right.map .term ++ (e.comment.map .comment).toList) := by
    rw [← hcut, Equation.parts, List.append_assoc, List.cons_append]
  constructor
  · rintro ⟨rest, hall, -, hrest, -, hleft, hright⟩
    refine ⟨?_, hleft, hright⟩
    rw [hall, hcut, Part.throughComment_append hcomment, hrest, hparts]
  · rintro ⟨hall, hleft, hright⟩
    obtain ⟨tail, htail⟩ := Part.throughComment_prefix parts
    have hrest : parts =
        opening ++ (e.right.map .term ++ (e.comment.map .comment).toList ++ tail) := by
      rw [← htail, hall, hparts, List.append_assoc]
    refine ⟨_, hrest.trans (hcut _).symm, hleft.ne_nil, ?_, hright.ne_nil, hleft, hright⟩
    rw [hrest, Part.throughComment_append hcomment, hparts] at hall
    exact List.append_cancel_left hall

/-- **The equations that parts make up.** There is one if and only if what stands before the
first comment are two linear sides with one relation between them. Its parts are those up to
and with the comment, and make it up again; an error carries all parts. -/
theorem ofParts_linear (parts : List (Part α)) :
    ((∃ e, ofParts parts = .ok e) ↔ Part.Related (Part.beforeComment parts)) ∧
      (∀ e, ofParts parts = .ok e → e.parts = Part.throughComment parts ∧ ofParts e.parts = .ok e) ∧
      ∀ error, ofParts parts = .error error → error.parts = parts := by
  refine ⟨⟨?_, ?_⟩, ?_, ?_⟩
  · rintro ⟨e, he⟩
    obtain ⟨hall, hleft, hright⟩ := ofParts_eq_ok_iff.1 he
    refine ⟨e.left, e.relation, e.right, ?_, hleft, hright⟩
    calc Part.beforeComment parts
        = Part.beforeComment e.parts := by rw [← hall, Part.beforeComment_throughComment]
      _ = e.sides := Part.beforeComment_append_comment isComment_of_mem_sides
  · rintro ⟨left, relation, right, hbefore, hleft, hright⟩
    obtain ⟨comment, hcomment⟩ := Part.exists_throughComment_eq parts
    refine ⟨⟨relation, left, right, comment⟩, ofParts_eq_ok_iff.2 ⟨?_, hleft, hright⟩⟩
    rw [hcomment, hbefore]
    rfl
  · intro e he
    have hagain := (assemble_parts (ofParts_eq_ok.1 he)).2
    exact ⟨(ofParts_eq_ok_iff.1 he).1.symm, ofParts_eq_ok.2 hagain⟩
  · intro error herror
    unfold ofParts at herror
    cases hassemble : assemble parts with
    | ok e => simp [hassemble, Except.mapError] at herror
    | error fault =>
      rw [hassemble] at herror
      obtain rfl := Except.error.inj herror
      rfl

end Equation

end Schematic
