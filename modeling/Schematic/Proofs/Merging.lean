import Schematic.Proofs.Turning

/-!
# Merging points on one line

A line along the axes that never goes back is drawn the same without the points between its turns.
Of three points on one line the middle one is left out, and what the two segments covered, the one
in their place covers: no more, which carries over to the whole line by induction over its points,
and no less, since the middle point lay between the others.

* `Point.along`: how far a step goes on in the direction of the step before.
* `OnSegment.join_iff`: two segments on one line, and the one in their place.
* `mergeFrom_of_turning`: a line that turns at every point keeps all of them.
* `simplify_drawn`: the line without the points between its turns.
-/

namespace Schematic

/-- **How far a step goes on** in the direction of the step before, in squares: it is positive if
the line goes on there, negative if it points back, and zero if it turns at a right angle. -/
def Point.along (p q r : Point Rat) : Rat :=
  (q.x - p.x) * (r.x - q.x) + (q.y - p.y) * (r.y - q.y)

section Along

variable {p q r s : Point Rat} {line rest : List (Point Rat)}

/-- Two steps on one line, neither of them empty, go on if the second does not point back. -/
theorem strictlyBetween_of_nonneg {a b c : Rat} (hab : a ≠ b) (hbc : b ≠ c)
    (h : 0 ≤ (b - a) * (c - b)) : StrictlyBetween a b c := by
  have hne : (b - a) * (c - b) ≠ 0 :=
    mul_ne_zero (sub_ne_zero.2 hab.symm) (sub_ne_zero.2 hbc.symm)
  have hpos : 0 < (b - a) * (c - b) := lt_of_le_of_ne h hne.symm
  rcases mul_pos_iff.1 hpos with ⟨h₁, h₂⟩ | ⟨h₁, h₂⟩
  · exact Or.inl ⟨sub_pos.1 h₁, sub_pos.1 h₂⟩
  · exact Or.inr ⟨sub_neg.1 h₂, sub_neg.1 h₁⟩

theorem Point.between_of_along (hpq : p.Step q) (hqr : q.Step r) (h : 0 ≤ Point.along p q r) :
    p.Between q r := by
  unfold Point.along at h
  constructor
  · intro h₁ h₂
    rw [h₁, sub_self, zero_mul, zero_add] at h
    exact strictlyBetween_of_nonneg (fun hy => Point.not_same hpq.1 ⟨h₁, hy⟩)
      (fun hy => Point.not_same hqr.1 ⟨h₂, hy⟩) h
  · intro h₁ h₂
    rw [h₁, sub_self, zero_mul, add_zero] at h
    exact strictlyBetween_of_nonneg (fun hx => Point.not_same hpq.1 ⟨hx, h₁⟩)
      (fun hx => Point.not_same hqr.1 ⟨hx, h₂⟩) h

/-- A line along the axes of which no step points back goes on. -/
theorem onward_of_along (hstep : ∀ p q, [p, q] <:+: line → p.Step q)
    (hback : ∀ p q r, [p, q, r] <:+: line → 0 ≤ Point.along p q r) : Onward line := by
  refine ⟨hstep, fun p q r hi => ?_⟩
  have hpq : [p, q] <:+: line := List.IsInfix.trans ⟨[], [r], rfl⟩ hi
  have hqr : [q, r] <:+: line := List.IsInfix.trans ⟨[p], [], rfl⟩ hi
  exact Point.between_of_along (hstep p q hpq) (hstep q r hqr) (hback p q r hi)

/-- Steps along the axes that are not on one line are at a right angle. -/
theorem Turning.along_eq_zero (h : Turning line) (hi : [p, q, r] <:+: line) :
    Point.along p q r = 0 := by
  have hpq : p.Step q := h.step p q (List.IsInfix.trans ⟨[], [r], rfl⟩ hi)
  have hqr : q.Step r := h.step q r (List.IsInfix.trans ⟨[p], [], rfl⟩ hi)
  obtain ⟨hcolumn, hrow⟩ := h.turn p q r hi
  unfold Point.along
  rcases hpq.2 with hx | hy
  · have hy : q.y = r.y := hqr.2.resolve_left fun hx' => hcolumn ⟨hx, hx'⟩
    rw [hx, hy]
    ring
  · have hx : q.x = r.x := hqr.2.resolve_right fun hy' => hrow ⟨hy, hy'⟩
    rw [hx, hy]
    ring

/-! ### The segment in place of two -/

/-- What lies on one side of the middle lies between the ends. -/
theorem StrictlyBetween.join {a b c d : Rat} (h : StrictlyBetween a b c)
    (hd : (min a b ≤ d ∧ d ≤ max a b) ∨ (min b c ≤ d ∧ d ≤ max b c)) :
    min a c ≤ d ∧ d ≤ max a c := by
  rcases h with ⟨hab, hbc⟩ | ⟨hcb, hba⟩
  · rw [min_eq_left (hab.trans hbc).le, max_eq_right (hab.trans hbc).le]
    rw [min_eq_left hab.le, max_eq_right hab.le, min_eq_left hbc.le, max_eq_right hbc.le] at hd
    rcases hd with hd | hd
    · exact ⟨hd.1, hd.2.trans hbc.le⟩
    · exact ⟨hab.le.trans hd.1, hd.2⟩
  · rw [min_eq_right (hcb.trans hba).le, max_eq_left (hcb.trans hba).le]
    rw [min_eq_right hba.le, max_eq_left hba.le, min_eq_right hcb.le, max_eq_left hcb.le] at hd
    rcases hd with hd | hd
    · exact ⟨hcb.le.trans hd.1, hd.2⟩
    · exact ⟨hd.1, hd.2.trans hba.le⟩

/-- **Two segments on one line** cover what the one in their place covers. -/
theorem OnSegment.join_iff (hb : p.Between q r) (ha : aligned p q r = true) :
    OnSegment p r s ↔ OnSegment p q s ∨ OnSegment q r s := by
  refine ⟨fun h => h.split hb ha, fun h => ?_⟩
  rcases aligned_iff.1 ha with ⟨h₁, h₂⟩ | ⟨h₁, h₂⟩
  · -- in one column only the rows count
    have hpq : p.x = q.x := h₂.symm.trans h₁
    refine ⟨?_, (hb.column hpq h₁.symm).join (h.imp OnSegment.y OnSegment.y)⟩
    rcases h with h | h
    · rw [h₁]
      exact h.x
    · rw [hpq]
      exact h.x
  · have hpq : p.y = q.y := h₂.symm.trans h₁
    refine ⟨(hb.row hpq h₁.symm).join (h.imp OnSegment.x OnSegment.x), ?_⟩
    rcases h with h | h
    · rw [h₁]
      exact h.y
    · rw [hpq]
      exact h.y

end Along

/-! ### The line without the points between its turns -/

section Merged

variable {p q r s : Point Rat} {line rest : List (Point Rat)}

theorem mergeFrom_sublist (p q : Point Rat) (rest : List (Point Rat)) :
    (mergeFrom p q rest).Sublist (p :: q :: rest) := by
  induction rest generalizing p q with
  | nil => exact List.Sublist.refl _
  | cons r rest ih =>
    rw [mergeFrom]
    split
    · have hskip : (p :: r :: rest).Sublist (p :: q :: r :: rest) :=
        ((List.Sublist.refl (r :: rest)).cons q).cons_cons p
      exact (ih p r).trans hskip
    · exact (ih q r).cons_cons p

/-- **No point of the line gets lost**: the segment in place of two covers both of them. -/
theorem onLine_of_onLine (h : Onward (p :: q :: rest)) (hs : OnLine (p :: q :: rest) s) :
    OnLine (mergeFrom p q rest) s := by
  induction rest generalizing p q with
  | nil => exact hs
  | cons r rest ih =>
    rw [mergeFrom]
    split
    · rename_i ha
      refine ih (h.merge ha) (onLine_cons.2 ?_)
      rcases onLine_cons.1 hs with hs | hs
      · exact Or.inl ((OnSegment.join_iff h.head_between ha).2 (Or.inl hs))
      · rcases onLine_cons.1 hs with hs | hs
        · exact Or.inl ((OnSegment.join_iff h.head_between ha).2 (Or.inr hs))
        · exact Or.inr hs
    · -- the point `q` stays, so the first segment does, too
      obtain ⟨t, tail, ht, -, -⟩ := mergeFrom_head h.tail
      rcases onLine_cons.1 hs with hs | hs
      · rw [ht]
        exact onLine_cons.2 (Or.inl hs)
      · have htail := ih h.tail hs
        rw [ht] at htail ⊢
        exact onLine_cons.2 (Or.inr htail)

/-- **A line that turns at every point** keeps all of them. -/
theorem mergeFrom_of_turning (h : Turning (p :: q :: rest)) :
    mergeFrom p q rest = p :: q :: rest := by
  induction rest generalizing p q with
  | nil => rfl
  | cons r rest ih =>
    have hfirst : [p, q, r] <:+: p :: q :: r :: rest := ⟨[], rest, rfl⟩
    obtain ⟨hcolumn, hrow⟩ := h.turn p q r hfirst
    have hnot : ¬aligned p q r = true := by
      intro ha
      rcases aligned_iff.1 ha with ⟨h₁, h₂⟩ | ⟨h₁, h₂⟩
      · exact hcolumn ⟨h₂.symm.trans h₁, h₁.symm⟩
      · exact hrow ⟨h₂.symm.trans h₁, h₁.symm⟩
    have htail : Turning (q :: r :: rest) := by
      have hsuffix : q :: r :: rest <:+: p :: q :: r :: rest := (List.suffix_cons p _).isInfix
      exact ⟨fun a b hi => h.step a b (hi.trans hsuffix),
        fun a b c hi => h.turn a b c (hi.trans hsuffix)⟩
    rw [mergeFrom, if_neg hnot, ih htail]

/-- **Merging points on one line.** A line along the axes that never points back keeps some of its
points, the first and the last one among them, and covers exactly what it covered. None of its
segments is empty, each one turns at a right angle from the one before, and there is nothing left
to merge. -/
theorem simplify_drawn (hstep : ∀ p q, [p, q] <:+: line → p.Step q)
    (hback : ∀ p q r, [p, q, r] <:+: line → 0 ≤ Point.along p q r) :
    (simplify line).Sublist line ∧ (simplify line).head? = line.head? ∧
      (simplify line).getLast? = line.getLast? ∧
      (∀ u, OnLine (simplify line) u ↔ OnLine line u) ∧
      (∀ p q, [p, q] <:+: simplify line → p.Step q) ∧
      (∀ p q r, [p, q, r] <:+: simplify line → Point.along p q r = 0) ∧
      simplify (simplify line) = simplify line := by
  have honward := onward_of_along hstep hback
  match line with
  | [] =>
    have hnil : simplify ([] : List (Point Rat)) = [] := rfl
    rw [hnil]
    exact ⟨List.Sublist.refl _, rfl, rfl, fun u => Iff.rfl, fun p q hi => hstep p q hi,
      fun p q r hi => absurd hi.length_le (by simp), hnil⟩
  | [p] =>
    have hone : simplify [p] = [p] := rfl
    rw [hone]
    exact ⟨List.Sublist.refl _, rfl, rfl, fun u => Iff.rfl, fun p q hi => hstep p q hi,
      fun p q r hi => absurd hi.length_le (by simp), hone⟩
  | p :: q :: rest =>
    have hturning := turning_mergeFrom honward
    obtain ⟨t, tail, ht, -, -⟩ := mergeFrom_head honward
    rw [simplify_cons_cons]
    refine ⟨mergeFrom_sublist p q rest, ?_, ?_, fun u => ?_, hturning.step,
      fun a b c hi => hturning.along_eq_zero hi, ?_⟩
    · rw [ht]
      rfl
    · rw [mergeFrom_getLast?]
      exact List.getLast?_cons_cons.symm
    · exact ⟨onLine_mergeFrom honward, onLine_of_onLine honward⟩
    · rw [ht] at hturning ⊢
      rw [simplify_cons_cons, mergeFrom_of_turning hturning]

end Merged

/-- A line of two runs, of three points and of four. -/
def bentLine : List (Point Rat) := [⟨0, 0⟩, ⟨2, 0⟩, ⟨5, 0⟩, ⟨5, 1⟩, ⟨5, 3⟩, ⟨5, 7⟩]

theorem bentLine_drawn : simplify bentLine = [⟨0, 0⟩, ⟨5, 0⟩, ⟨5, 7⟩] ∧
    (∀ p q, [p, q] <:+: bentLine → p.Step q) ∧
    (∀ p q r, [p, q, r] <:+: bentLine → 0 ≤ Point.along p q r) ∧
    (simplify bentLine).Sublist bentLine ∧
    (∀ u, OnLine (simplify bentLine) u ↔ OnLine bentLine u) ∧
    simplify (simplify bentLine) = simplify bentLine := by
  have hstep : ∀ p q, [p, q] <:+: bentLine → p.Step q := by
    intro p q hi
    simp only [bentLine, pair_infix_cons, not_pair_infix_singleton, or_false] at hi
    rcases hi with ⟨rfl, rfl⟩ | ⟨rfl, rfl⟩ | ⟨rfl, rfl⟩ | ⟨rfl, rfl⟩ | ⟨rfl, rfl⟩
    all_goals exact ⟨by decide, by decide⟩
  have hback : ∀ p q r, [p, q, r] <:+: bentLine → 0 ≤ Point.along p q r := by
    intro p q r hi
    simp only [bentLine, triple_infix_cons, not_triple_infix_pair, or_false] at hi
    rcases hi with ⟨rfl, rfl, rfl⟩ | ⟨rfl, rfl, rfl⟩ | ⟨rfl, rfl, rfl⟩ | ⟨rfl, rfl, rfl⟩
    all_goals norm_num [Point.along]
  obtain ⟨hsub, -, -, hcover, -, -, hagain⟩ := simplify_drawn hstep hback
  exact ⟨by decide, hstep, hback, hsub, hcover, hagain⟩

end Schematic
