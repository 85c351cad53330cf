import Mathlib
import Schematic.Proofs.Exact
import Schematic.Route.Polyline

/-!
# Lines along the axes

A line of points runs along the axes, and it may or may not keep points between its
turns. Leaving out such points keeps the shape of a line that never points back.

* `Onward`: a line along the axes that never points back along the step before.
* `Turning`: a line along the axes that turns at every point between its ends.
* `turning_dedup_simplify`: leaving out points makes the first into the second.
* `onLine_dedup_simplify`: the line then covers no more of the plane.
-/

namespace Schematic

/-- Points are compared by their coordinates. -/
theorem Point.beq_iff {p q : Point Rat} : (p == q) = true ↔ p = q := by
  change (p.x == q.x && p.y == q.y) = true ↔ _
  rw [Bool.and_eq_true]
  cases p; cases q
  simp

theorem aligned_iff {p q r : Point Rat} : aligned p q r = true ↔
    (r.x = q.x ∧ r.x = p.x) ∨ (r.y = q.y ∧ r.y = p.y) := by
  simp [aligned]

/-- A step along one of the axes. -/
def Point.Step (p q : Point Rat) : Prop := p ≠ q ∧ (p.x = q.x ∨ p.y = q.y)

theorem Point.Step.symm {p q : Point Rat} (h : p.Step q) : q.Step p :=
  ⟨h.1.symm, h.2.imp Eq.symm Eq.symm⟩

/-- A number lies strictly between two others. -/
def StrictlyBetween (a b c : Rat) : Prop := (a < b ∧ b < c) ∨ (c < b ∧ b < a)

theorem StrictlyBetween.symm {a b c : Rat} (h : StrictlyBetween a b c) :
    StrictlyBetween c b a :=
  Or.symm h

theorem StrictlyBetween.ends_ne {a b c : Rat} (h : StrictlyBetween a b c) : a ≠ c := by
  rcases h with h | h
  · exact (h.1.trans h.2).ne
  · exact (h.1.trans h.2).ne'

/-- Numbers that go on in one direction. -/
theorem StrictlyBetween.skip {a b c d : Rat} (h : StrictlyBetween a b c)
    (h' : StrictlyBetween b c d) : StrictlyBetween a c d := by
  rcases h with h | h <;> rcases h' with h' | h'
  · exact Or.inl ⟨h.1.trans h.2, h'.2⟩
  · exact absurd h'.2 h.2.le.not_gt
  · exact absurd h'.1 h.1.le.not_gt
  · exact Or.inr ⟨h'.1, h.1.trans h.2⟩

/-- What lies between the ends lies on one side of the middle. -/
theorem StrictlyBetween.split {a b c d : Rat} (h : StrictlyBetween a b c)
    (hd : min a c ≤ d ∧ d ≤ max a c) :
    (min a b ≤ d ∧ d ≤ max a b) ∨ (min b c ≤ d ∧ d ≤ max b c) := by
  rcases h with ⟨hab, hbc⟩ | ⟨hcb, hba⟩
  · rw [min_eq_left (hab.trans hbc).le, max_eq_right (hab.trans hbc).le] at hd
    rw [min_eq_left hab.le, max_eq_right hab.le, min_eq_left hbc.le, max_eq_right hbc.le]
    exact (le_total d b).imp (fun h => ⟨hd.1, h⟩) fun h => ⟨h, hd.2⟩
  · rw [min_eq_right (hcb.trans hba).le, max_eq_left (hcb.trans hba).le] at hd
    rw [min_eq_right hba.le, max_eq_left hba.le, min_eq_right hcb.le, max_eq_left hcb.le]
    exact (le_total b d).imp (fun h => ⟨h, hd.2⟩) fun h => ⟨hd.1, h⟩

/-- The first number may come closer to the middle one. -/
theorem StrictlyBetween.closer {a b c d : Rat} (h : StrictlyBetween a b c)
    (hd : min a b ≤ d ∧ d ≤ max a b) (hne : d ≠ b) : StrictlyBetween d b c := by
  rcases h with ⟨hab, hbc⟩ | ⟨hcb, hba⟩
  · rw [min_eq_left hab.le, max_eq_right hab.le] at hd
    exact Or.inl ⟨lt_of_le_of_ne hd.2 hne, hbc⟩
  · rw [min_eq_right hba.le, max_eq_left hba.le] at hd
    exact Or.inr ⟨hcb, lt_of_le_of_ne hd.1 hne.symm⟩

/-- **The middle one of three points on one line lies between the others.** -/
structure Point.Between (p q r : Point Rat) : Prop where
  column : p.x = q.x → q.x = r.x → StrictlyBetween p.y q.y r.y
  row : p.y = q.y → q.y = r.y → StrictlyBetween p.x q.x r.x

theorem Point.Between.symm {p q r : Point Rat} (h : p.Between q r) : r.Between q p :=
  ⟨fun h₁ h₂ => (h.column h₂.symm h₁.symm).symm, fun h₁ h₂ => (h.row h₂.symm h₁.symm).symm⟩

/-- **A line that goes on**: steps along the axes, none back along the one before. -/
structure Onward (line : List (Point Rat)) : Prop where
  step : ∀ p q, [p, q] <:+: line → p.Step q
  between : ∀ p q r, [p, q, r] <:+: line → p.Between q r

/-- **A line that turns** at every point between its ends: steps along the axes, and
never three points of one column or one row after each other. -/
structure Turning (line : List (Point Rat)) : Prop where
  step : ∀ p q, [p, q] <:+: line → p.Step q
  turn : ∀ p q r, [p, q, r] <:+: line →
    ¬(p.x = q.x ∧ q.x = r.x) ∧ ¬(p.y = q.y ∧ q.y = r.y)

/-- A point lies on the segment between two points of one column or one row. -/
structure OnSegment (p q r : Point Rat) : Prop where
  x : min p.x q.x ≤ r.x ∧ r.x ≤ max p.x q.x
  y : min p.y q.y ≤ r.y ∧ r.y ≤ max p.y q.y

/-- A point lies on one of the segments of a line. -/
def OnLine (line : List (Point Rat)) (r : Point Rat) : Prop :=
  ∃ p q, [p, q] <:+: line ∧ OnSegment p q r

theorem OnSegment.symm {p q r : Point Rat} (h : OnSegment p q r) : OnSegment q p r :=
  ⟨by rw [min_comm, max_comm]; exact h.x, by rw [min_comm, max_comm]; exact h.y⟩

/-! ### Pairs and triples of a line -/

section Infix

variable {β : Type} {a b c p q r : β} {line : List β}

theorem pair_infix_cons : [p, q] <:+: a :: b :: line ↔ (p = a ∧ q = b) ∨ [p, q] <:+: b :: line := by
  rw [List.infix_cons_iff, List.cons_prefix_cons, List.cons_prefix_cons]
  simp

theorem triple_infix_cons : [p, q, r] <:+: a :: b :: c :: line ↔
    (p = a ∧ q = b ∧ r = c) ∨ [p, q, r] <:+: b :: c :: line := by
  rw [List.infix_cons_iff, List.cons_prefix_cons, List.cons_prefix_cons, List.cons_prefix_cons]
  simp

theorem not_pair_infix_singleton : ¬[p, q] <:+: [a] := fun h => by simpa using h.length_le

theorem not_triple_infix_pair : ¬[p, q, r] <:+: [a, b] := fun h => by simpa using h.length_le

end Infix

section Cons

variable {p q r s : Point Rat} {line : List (Point Rat)}

theorem Onward.tail (h : Onward (p :: line)) : Onward line :=
  ⟨fun a b hi => h.step a b (hi.trans (List.suffix_cons p line).isInfix),
    fun a b c hi => h.between a b c (hi.trans (List.suffix_cons p line).isInfix)⟩

theorem Onward.head_step (h : Onward (p :: q :: line)) : p.Step q :=
  h.step p q (pair_infix_cons.2 (Or.inl ⟨rfl, rfl⟩))

theorem Onward.head_between (h : Onward (p :: q :: r :: line)) : p.Between q r :=
  h.between p q r (triple_infix_cons.2 (Or.inl ⟨rfl, rfl, rfl⟩))

theorem onward_pair (h : p.Step q) : Onward [p, q] := by
  refine ⟨fun a b hi => ?_, fun a b c hi => absurd hi not_triple_infix_pair⟩
  rcases pair_infix_cons.1 hi with ⟨rfl, rfl⟩ | hi
  · exact h
  · exact absurd hi not_pair_infix_singleton

theorem Onward.cons (h : Onward (q :: r :: line)) (hs : p.Step q) (hb : p.Between q r) :
    Onward (p :: q :: r :: line) := by
  refine ⟨fun a b hi => ?_, fun a b c hi => ?_⟩
  · rcases pair_infix_cons.1 hi with ⟨rfl, rfl⟩ | hi
    · exact hs
    · exact h.step a b hi
  · rcases triple_infix_cons.1 hi with ⟨rfl, rfl, rfl⟩ | hi
    · exact hb
    · exact h.between a b c hi

theorem onward_cons_iff : Onward (p :: q :: r :: line) ↔
    p.Step q ∧ p.Between q r ∧ Onward (q :: r :: line) :=
  ⟨fun h => ⟨h.head_step, h.head_between, h.tail⟩, fun ⟨hs, hb, h⟩ => h.cons hs hb⟩

/-- A line read backwards. -/
theorem Onward.reverse (h : Onward line) : Onward line.reverse := by
  refine ⟨fun a b hi => ?_, fun a b c hi => ?_⟩
  · rw [← List.reverse_infix, List.reverse_reverse] at hi
    exact (h.step b a hi).symm
  · rw [← List.reverse_infix, List.reverse_reverse] at hi
    exact (h.between c b a hi).symm

/-- A point of a segment along a column stays in that column. -/
theorem OnSegment.column (h : OnSegment p q s) (hx : p.x = q.x) : s.x = q.x := by
  have := h.x
  rw [hx, min_self, max_self] at this
  exact le_antisymm this.2 this.1

/-- A point of a segment along a row stays in that row. -/
theorem OnSegment.row (h : OnSegment p q s) (hy : p.y = q.y) : s.y = q.y := by
  have := h.y
  rw [hy, min_self, max_self] at this
  exact le_antisymm this.2 this.1

theorem Point.not_same (h : s ≠ q) : ¬(s.x = q.x ∧ s.y = q.y) := fun he => h (Point.ext he.1 he.2)

/-- **A line may begin later on its first segment.** -/
theorem Onward.trim_head (h : Onward (p :: q :: line)) (hs : OnSegment p q s) (hne : s ≠ q) :
    Onward (s :: q :: line) := by
  have hstep := h.head_step
  have hsq : s.Step q := ⟨hne, hstep.2.imp hs.column hs.row⟩
  -- only the turn at `q` involves the new first point
  cases line with
  | nil => exact onward_pair hsq
  | cons r rest =>
    refine h.tail.cons hsq ⟨fun h₁ h₂ => ?_, fun h₁ h₂ => ?_⟩
    · have hpx : p.x = q.x :=
        hstep.2.resolve_right fun hy => Point.not_same hne ⟨h₁, hs.row hy⟩
      exact (h.head_between.column hpx h₂).closer hs.y fun hy => Point.not_same hne ⟨h₁, hy⟩
    · have hpy : p.y = q.y :=
        hstep.2.resolve_left fun hx => Point.not_same hne ⟨hs.column hx, h₁⟩
      exact (h.head_between.row hpy h₂).closer hs.x fun hx => Point.not_same hne ⟨hx, h₁⟩

/-- On one line, the step over the middle point goes on as the steps to and from it. -/
theorem Onward.merge (h : Onward (p :: q :: r :: line)) (ha : aligned p q r = true) :
    Onward (p :: r :: line) := by
  obtain ⟨-, hb, h'⟩ := onward_cons_iff.1 h
  -- both steps go in one direction, so the step over `q` is not empty
  have hpr : p.Step r := by
    rcases aligned_iff.1 ha with ⟨h₁, h₂⟩ | ⟨h₁, h₂⟩
    · exact ⟨fun he => (hb.column (h₂.symm.trans h₁) h₁.symm).ends_ne (by rw [he]), Or.inl h₂.symm⟩
    · exact ⟨fun he => (hb.row (h₂.symm.trans h₁) h₁.symm).ends_ne (by rw [he]), Or.inr h₂.symm⟩
  cases line with
  | nil => exact onward_pair hpr
  | cons t rest =>
    obtain ⟨-, hb', h''⟩ := onward_cons_iff.1 h'
    -- three steps in one direction; across it, the first two could not have gone on
    refine h''.cons hpr ⟨fun h₁ h₂ => ?_, fun h₁ h₂ => ?_⟩
    · rcases aligned_iff.1 ha with ⟨h₃, h₄⟩ | ⟨h₃, h₄⟩
      · exact (hb.column (h₄.symm.trans h₃) h₃.symm).skip (hb'.column h₃.symm h₂)
      · exact absurd ⟨h₁, h₄.symm⟩ (Point.not_same hpr.1)
    · rcases aligned_iff.1 ha with ⟨h₃, h₄⟩ | ⟨h₃, h₄⟩
      · exact absurd ⟨h₄.symm, h₁⟩ (Point.not_same hpr.1)
      · exact (hb.row (h₄.symm.trans h₃) h₃.symm).skip (hb'.row h₃.symm h₂)

/-- A point of the longer segment lies on one of the two that make it up. -/
theorem OnSegment.split (h : OnSegment p r s) (hb : p.Between q r) (ha : aligned p q r = true) :
    OnSegment p q s ∨ OnSegment q r s := by
  rcases aligned_iff.1 ha with ⟨h₁, h₂⟩ | ⟨h₁, h₂⟩
  · have hx : s.x = r.x := h.column h₂.symm
    exact ((hb.column (h₂.symm.trans h₁) h₁.symm).split h.y).imp
      (fun hy => ⟨by rw [hx, ← h₁, ← h₂]; simp, hy⟩) fun hy => ⟨by rw [hx, ← h₁]; simp, hy⟩
  · have hy : s.y = r.y := h.row h₂.symm
    exact ((hb.row (h₂.symm.trans h₁) h₁.symm).split h.x).imp
      (fun hx => ⟨hx, by rw [hy, ← h₁, ← h₂]; simp⟩) fun hx => ⟨hx, by rw [hy, ← h₁]; simp⟩

end Cons

/-! ### Leaving out points between turns -/

/-- The line that is left of a line from its first two points on. -/
def mergeFrom (p q : Point Rat) : List (Point Rat) → List (Point Rat)
  | [] => [p, q]
  | r :: rest => if aligned p q r then mergeFrom p r rest else p :: mergeFrom q r rest

theorem foldl_extend (p q : Point Rat) (rest out : List (Point Rat)) :
    rest.foldl extend (q :: p :: out) = (mergeFrom p q rest).reverse ++ out := by
  induction rest generalizing p q out with
  | nil => rfl
  | cons r rest ih =>
    rw [List.foldl_cons, mergeFrom]
    cases ha : aligned p q r with
    | true => simp [extend, ha, ih]
    | false => simp [extend, ha, ih]

/-- **Leaving out points is done from the first two points on.** -/
theorem simplify_cons_cons (p q : Point Rat) (rest : List (Point Rat)) :
    simplify (p :: q :: rest) = mergeFrom p q rest := by
  have h := foldl_extend p q rest []
  rw [List.append_nil] at h
  rw [simplify, List.foldl_cons, List.foldl_cons]
  exact (congrArg List.reverse h).trans (List.reverse_reverse _)

section Merge

variable {p q r s : Point Rat} {line rest : List (Point Rat)}

theorem mergeFrom_eq_cons (p q : Point Rat) (rest : List (Point Rat)) :
    ∃ tail, mergeFrom p q rest = p :: tail := by
  induction rest generalizing q with
  | nil => exact ⟨[q], rfl⟩
  | cons r rest ih =>
    rw [mergeFrom]
    split
    · exact ih r
    · exact ⟨_, rfl⟩

/-- The first step that is left goes the way of the first step. -/
theorem mergeFrom_head (h : Onward (p :: q :: rest)) :
    ∃ t tail, mergeFrom p q rest = p :: t :: tail ∧
      (p.x = q.x → p.x = t.x) ∧ (p.y = q.y → p.y = t.y) := by
  induction rest generalizing q with
  | nil => exact ⟨q, [], rfl, id, id⟩
  | cons r rest ih =>
    rw [mergeFrom]
    split
    · rename_i ha
      obtain ⟨t, tail, ht, hx, hy⟩ := ih (h.merge ha)
      have hne := Point.not_same h.head_step.1
      -- the first step is not empty, so it is aligned with the second along one axis only
      refine ⟨t, tail, ht, fun h₁ => hx ?_, fun h₁ => hy ?_⟩ <;>
        rcases aligned_iff.1 ha with ⟨h₂, h₃⟩ | ⟨h₂, h₃⟩
      · exact h₃.symm
      · exact absurd ⟨h₁, h₃.symm.trans h₂⟩ hne
      · exact absurd ⟨h₃.symm.trans h₂, h₁⟩ hne
      · exact h₃.symm
    · obtain ⟨tail, ht⟩ := mergeFrom_eq_cons q r rest
      exact ⟨q, tail, by rw [ht], id, id⟩

theorem mergeFrom_getLast? (p q : Point Rat) (rest : List (Point Rat)) :
    (mergeFrom p q rest).getLast? = (q :: rest).getLast? := by
  induction rest generalizing p q with
  | nil => rfl
  | cons r rest ih =>
    rw [mergeFrom, List.getLast?_cons_cons]
    split
    · exact ih p r
    · rw [List.getLast?_cons, ih q r]
      simp [List.getLast?_cons]

theorem turning_pair (h : p.Step q) : Turning [p, q] :=
  ⟨(onward_pair h).step, fun _ _ _ hi => absurd hi not_triple_infix_pair⟩

theorem Turning.cons (h : Turning (q :: r :: line)) (hs : p.Step q)
    (ht : ¬(p.x = q.x ∧ q.x = r.x) ∧ ¬(p.y = q.y ∧ q.y = r.y)) : Turning (p :: q :: r :: line) := by
  refine ⟨fun a b hi => ?_, fun a b c hi => ?_⟩
  · rcases pair_infix_cons.1 hi with ⟨rfl, rfl⟩ | hi
    · exact hs
    · exact h.step a b hi
  · rcases triple_infix_cons.1 hi with ⟨rfl, rfl, rfl⟩ | hi
    · exact ht
    · exact h.turn a b c hi

theorem turning_mergeFrom (h : Onward (p :: q :: rest)) : Turning (mergeFrom p q rest) := by
  induction rest generalizing p q with
  | nil => exact turning_pair h.head_step
  | cons r rest ih =>
    rw [mergeFrom]
    split
    · rename_i ha
      exact ih (h.merge ha)
    · rename_i ha
      have hqr := h.tail.head_step
      have htail := ih h.tail
      obtain ⟨t, tail, ht, hx, hy⟩ := mergeFrom_head h.tail
      rw [ht] at htail ⊢
      have hne := Point.not_same (htail.step q t (pair_infix_cons.2 (Or.inl ⟨rfl, rfl⟩))).1
      -- the step after `q` goes the way of the step to `r`, which does not go on from `p`
      refine htail.cons h.head_step ⟨fun ⟨h₁, h₂⟩ => ?_, fun ⟨h₁, h₂⟩ => ?_⟩
      · have hqx : q.x ≠ r.x := fun h₃ => ha (aligned_iff.2 (Or.inl ⟨h₃.symm, (h₁.trans h₃).symm⟩))
        exact hne ⟨h₂, hy (hqr.2.resolve_left hqx)⟩
      · have hqy : q.y ≠ r.y := fun h₃ => ha (aligned_iff.2 (Or.inr ⟨h₃.symm, (h₁.trans h₃).symm⟩))
        exact hne ⟨hx (hqr.2.resolve_right hqy), h₂⟩

theorem onLine_cons : OnLine (p :: q :: line) s ↔ OnSegment p q s ∨ OnLine (q :: line) s := by
  constructor
  · rintro ⟨a, b, hi, hs⟩
    rcases pair_infix_cons.1 hi with ⟨rfl, rfl⟩ | hi
    · exact Or.inl hs
    · exact Or.inr ⟨a, b, hi, hs⟩
  · rintro (hs | ⟨a, b, hi, hs⟩)
    · exact ⟨p, q, pair_infix_cons.2 (Or.inl ⟨rfl, rfl⟩), hs⟩
    · exact ⟨a, b, pair_infix_cons.2 (Or.inr hi), hs⟩

theorem onLine_mergeFrom (h : Onward (p :: q :: rest)) (hs : OnLine (mergeFrom p q rest) s) :
    OnLine (p :: q :: rest) s := by
  induction rest generalizing p q with
  | nil => exact hs
  | cons r rest ih =>
    rw [mergeFrom] at hs
    split at hs
    · rename_i ha
      -- the longer segment is made up of the two that it stands for
      rcases onLine_cons.1 (ih (h.merge ha) hs) with hs | hs
      · rcases hs.split h.head_between ha with hs | hs
        · exact onLine_cons.2 (Or.inl hs)
        · exact onLine_cons.2 (Or.inr (onLine_cons.2 (Or.inl hs)))
      · exact onLine_cons.2 (Or.inr (onLine_cons.2 (Or.inr hs)))
    · obtain ⟨t, tail, ht, -, -⟩ := mergeFrom_head h.tail
      rw [ht] at hs
      rcases onLine_cons.1 hs with hs | hs
      · exact onLine_cons.2 (Or.inl hs)
      · rw [← ht] at hs
        exact onLine_cons.2 (Or.inr (ih h.tail hs))

/-! ### The line that is drawn -/

theorem dedupAfter_of_steps (h : ∀ a b, [a, b] <:+: p :: line → a.Step b) :
    dedupAfter p line = line := by
  induction line generalizing p with
  | nil => rfl
  | cons q rest ih =>
    have hpq := (h p q (pair_infix_cons.2 (Or.inl ⟨rfl, rfl⟩))).1
    rw [dedupAfter, if_neg (by rwa [Point.beq_iff]),
      ih fun a b hi => h a b (pair_infix_cons.2 (Or.inr hi))]

/-- A line without empty steps keeps all of its points. -/
theorem dedup_of_steps (h : ∀ a b, [a, b] <:+: line → a.Step b) : dedup line = line := by
  cases line with
  | nil => rfl
  | cons p rest => rw [dedup, dedupAfter_of_steps h]

/-- **What is drawn of a line that goes on**: it turns at every point between its ends,
which stay where they are. -/
theorem turning_dedup_simplify (h : Onward (p :: q :: rest)) :
    Turning (dedup (simplify (p :: q :: rest))) ∧
      2 ≤ (dedup (simplify (p :: q :: rest))).length ∧
      (dedup (simplify (p :: q :: rest))).head? = some p ∧
      (dedup (simplify (p :: q :: rest))).getLast? = (q :: rest).getLast? := by
  have hturn := turning_mergeFrom h
  obtain ⟨t, tail, ht, -, -⟩ := mergeFrom_head h
  rw [simplify_cons_cons, dedup_of_steps hturn.step]
  exact ⟨hturn, by rw [ht]; simp, by rw [ht]; rfl, mergeFrom_getLast? p q rest⟩

/-- **It covers no more of the plane** than the line did. -/
theorem onLine_dedup_simplify (h : Onward (p :: q :: rest))
    (hs : OnLine (dedup (simplify (p :: q :: rest))) s) : OnLine (p :: q :: rest) s := by
  rw [simplify_cons_cons, dedup_of_steps (turning_mergeFrom h).step] at hs
  exact onLine_mergeFrom h hs

end Merge

end Schematic
