import Schematic.Proofs.Crossing

/-!
# Travelling along a line

A line of points is travelled from its first point to its last one, and the distance travelled says
where one is. Two lines are the same way if one is at the same point after every distance. A point
put in on one of the segments of a line does not change the way, whatever comes before and after.

* `travel`: where one is after a distance.
* `SameWay`: lines that are travelled alike.
* `OnSegment.exists_share`: a point of a segment divides it in some share.
* `sameWay_insert`: the way with a point put in.
* `holds_of_travel`: a way between points of a rectangle stays within the rectangle.
-/

namespace Schematic

/-- How far two points are apart, counted along the axes. -/
def Point.distance (p q : Point Rat) : Rat := |q.x - p.x| + |q.y - p.y|

/-- The point that divides the segment between two points in a share. -/
def Point.share (p q : Point Rat) (k : Rat) : Point Rat :=
  ⟨p.x + k * (q.x - p.x), p.y + k * (q.y - p.y)⟩

/-- **Where one is on a line** after a distance from its first point. At its end one stays. -/
def travel : List (Point Rat) → Rat → Option (Point Rat)
  | [], _ => none
  | [p], _ => some p
  | p :: q :: rest, d =>
    if d < p.distance q then some (p.share q (d / p.distance q))
    else travel (q :: rest) (d - p.distance q)

/-- **Lines that are travelled alike**: after every distance one is at the same point. -/
def SameWay (line line' : List (Point Rat)) : Prop := ∀ d, 0 ≤ d → travel line d = travel line' d

variable {p q s u : Point Rat} {line line' line'' rest : List (Point Rat)} {d k : Rat}

theorem SameWay.trans (h : SameWay line line') (h' : SameWay line' line'') :
    SameWay line line'' := fun d hd => (h d hd).trans (h' d hd)

/-- What comes first on both lines makes no difference. -/
theorem SameWay.append_left (h : SameWay (p :: line) (p :: line')) (front : List (Point Rat)) :
    SameWay (front ++ p :: line) (front ++ p :: line') := by
  induction front with
  | nil => exact h
  | cons q front ih =>
    -- the next point is the same on both lines, so the first segment is
    obtain ⟨r, tail, tail', hline, hline'⟩ : ∃ r tail tail',
        front ++ p :: line = r :: tail ∧ front ++ p :: line' = r :: tail' := by
      cases front with
      | nil => exact ⟨p, line, line', rfl, rfl⟩
      | cons r front => exact ⟨r, _, _, rfl, rfl⟩
    rw [hline, hline'] at ih
    rw [List.cons_append, List.cons_append, hline, hline']
    intro d hd
    rw [travel, travel]
    split
    · rfl
    · rename_i hle
      exact ih _ (by linarith)

/-! ### Points of a segment -/

/-- A number between two others divides the way from the one to the other. -/
theorem exists_share_of_between {a b c : Rat} (h : min a b ≤ c ∧ c ≤ max a b) :
    ∃ k, (0 ≤ k ∧ k ≤ 1) ∧ c = a + k * (b - a) := by
  have hc : c ∈ segment ℚ a b := by
    rw [segment_eq_uIcc]
    exact h
  rw [segment_eq_image'] at hc
  obtain ⟨k, hk, rfl⟩ := hc
  exact ⟨k, hk, rfl⟩

/-- **A point of a segment** along an axis divides it in some share. -/
theorem OnSegment.exists_share (h : OnSegment p q s) (hstep : p.x = q.x ∨ p.y = q.y) :
    ∃ k, (0 ≤ k ∧ k ≤ 1) ∧ s = p.share q k := by
  rcases hstep with hx | hy
  · obtain ⟨k, hk, hy⟩ := exists_share_of_between h.y
    refine ⟨k, hk, Point.ext ?_ hy⟩
    rw [h.column hx, Point.share, hx]
    ring
  · obtain ⟨k, hk, hx⟩ := exists_share_of_between h.x
    refine ⟨k, hk, Point.ext hx ?_⟩
    rw [h.row hy, Point.share, hy]
    ring

theorem Point.distance_nonneg (p q : Point Rat) : 0 ≤ p.distance q :=
  add_nonneg (abs_nonneg _) (abs_nonneg _)

theorem Point.distance_share (p q : Point Rat) (hk : 0 ≤ k) :
    p.distance (p.share q k) = k * p.distance q := by
  simp only [distance, share, add_sub_cancel_left, abs_mul, abs_of_nonneg hk]
  ring

theorem Point.share_distance (p q : Point Rat) (hk : k ≤ 1) :
    (p.share q k).distance q = (1 - k) * p.distance q := by
  have hrest : ∀ a b : Rat, b - (a + k * (b - a)) = (1 - k) * (b - a) := fun a b => by ring
  simp only [distance, share, hrest, abs_mul, abs_of_nonneg (sub_nonneg.2 hk)]
  ring

/-- A share of the first part of a divided segment. -/
theorem Point.share_share (p q : Point Rat) (j k : Rat) :
    p.share (p.share q k) j = p.share q (j * k) := by
  ext <;> simp only [share] <;> ring

/-- A share of the second part of a divided segment. -/
theorem Point.share_of_share (p q : Point Rat) (j k : Rat) :
    (p.share q k).share q j = p.share q (k + j * (1 - k)) := by
  ext <;> simp only [share] <;> ring

/-- **A point put in on a segment** does not change the way. -/
theorem sameWay_insert (hs : OnSegment p q s) (hstep : p.x = q.x ∨ p.y = q.y)
    (rest : List (Point Rat)) : SameWay (p :: q :: rest) (p :: s :: q :: rest) := by
  obtain ⟨k, ⟨hk₀, hk₁⟩, rfl⟩ := hs.exists_share hstep
  intro d hd
  have hpq := p.distance_nonneg q
  rw [travel, travel, travel, p.distance_share q hk₀, p.share_distance q hk₁]
  -- one is on the first part, on the second part, or behind both
  rcases lt_or_ge d (k * p.distance q) with hfirst | hfirst
  · have hlt : d < p.distance q := hfirst.trans_le (mul_le_of_le_one_left hpq hk₁)
    have hk : k ≠ 0 := by
      rintro rfl
      linarith
    have hD : p.distance q ≠ 0 := (hd.trans_lt hlt).ne'
    rw [if_pos hlt, if_pos hfirst, Point.share_share]
    congr 2
    field_simp
  · rw [if_neg hfirst.not_gt]
    rcases lt_or_ge d (p.distance q) with hsecond | hsecond
    · have hlt : d - k * p.distance q < (1 - k) * p.distance q := by linarith
      have hD : p.distance q ≠ 0 := (hd.trans_lt hsecond).ne'
      have hk : 1 - k ≠ 0 := by
        intro hk
        rw [hk, zero_mul] at hlt
        linarith
      rw [if_pos hsecond, if_pos hlt, Point.share_of_share]
      congr 2
      field_simp
      ring
    · rw [if_neg hsecond.not_gt, if_neg (by linarith)]
      congr 1
      ring

/-! ### Ways within a rectangle -/

theorem Rect.holds_share {r : Rect Rat} (hp : r.holds p = true) (hq : r.holds q = true)
    (hk₀ : 0 ≤ k) (hk₁ : k ≤ 1) : r.holds (p.share q k) = true := by
  rw [holds_iff] at hp hq ⊢
  have hcolumns : Convex ℚ (Set.Icc r.left r.right) := convex_Icc r.left r.right
  have hrows : Convex ℚ (Set.Icc r.top r.bottom) := convex_Icc r.top r.bottom
  exact ⟨hcolumns.add_smul_sub_mem hp.1 hq.1 ⟨hk₀, hk₁⟩,
    hrows.add_smul_sub_mem hp.2 hq.2 ⟨hk₀, hk₁⟩⟩

/-- **A way between points of a rectangle** stays within the rectangle. -/
theorem holds_of_travel {r : Rect Rat} (hline : ∀ p ∈ line, r.holds p = true) (hd : 0 ≤ d)
    (h : travel line d = some u) : r.holds u = true := by
  induction line generalizing d with
  | nil => simp [travel] at h
  | cons p rest ih =>
    cases rest with
    | nil =>
      obtain rfl : p = u := by simpa [travel] using h
      exact hline p List.mem_cons_self
    | cons q rest =>
      rw [travel] at h
      split at h
      · rename_i hlt
        obtain rfl := Option.some.inj h
        have hpq := p.distance_nonneg q
        exact Rect.holds_share (hline p (by simp)) (hline q (by simp)) (div_nonneg hd hpq)
          (div_le_one_of_le₀ hlt.le hpq)
      · rename_i hle
        exact ih (fun r hr => hline r (List.mem_cons_of_mem p hr)) (by linarith) h

end Schematic
