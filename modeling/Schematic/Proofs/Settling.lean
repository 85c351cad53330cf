import Schematic.Proofs.Claiming
import Schematic.Proofs.Foremost

/-!
# Settling cells

What a search with a queue knows is right in every round: the steps to a settled cell are its
distance from the start, and the cell that it was reached from is the foremost one before it, since
the cells come out of the queue in order. Each round settles a cell or shortens the queue, so the
search ends.

* `AccessGrid.Sound`: what every round keeps.
* `AccessGrid.queueSearch_eq`: every search ends, with the shortest path that the flood finds.
* `AccessGrid.queueSearch_foremost`: so its path goes by foremost cells.
-/

namespace Schematic.AccessGrid

open StateTransition

variable {α : Type} {g : AccessGrid α} {start goal a b c p q : Cell} {n m k : ℕ}
  {path nexts : List Cell}

/-! ### Reaching the cells around one -/

theorem mem_onward : b ∈ g.onward a ↔ b ∈ g.successors a := by
  simp only [onward, successors, Direction.all, List.mem_filterMap, List.mem_cons, List.not_mem_nil,
    or_false]
  constructor <;> rintro ⟨d, -, hd⟩ <;> exact ⟨d, by cases d <;> simp, hd⟩

section Relax

variable {e : Entry} {s : Search}

theorem steps_reach : (s.reach e b).steps c = if c = b then some (e.steps + 1) else s.steps c :=
  Function.update_apply ..

theorem before_reach : (s.reach e b).before c = if c = b then some e.cell else s.before c :=
  Function.update_apply ..

theorem mem_queue_reach {f : Entry} :
    f ∈ (s.reach e b).queue ↔ f = ⟨e.steps + 1, b⟩ ∨ f ∈ s.queue :=
  List.mem_cons

theorem relax_of_none (hsettled : b ∉ s.settled) (h : s.steps b = none) :
    s.relax e b = s.reach e b := by
  rw [Search.relax, if_neg hsettled, h, if_pos (by rfl)]

theorem relax_of_some (h : s.steps b = some m) (hm : m ≤ e.steps + 1) : s.relax e b = s := by
  have hnot : ¬(s.steps b).all (e.steps + 1 < ·) = true := by
    rw [h]
    simpa using hm
  rw [Search.relax, if_neg hnot, ite_self]

/-- **After some cells were reached**, those that had been reached before are as they were. The
others are reached by one step more than the entry, from its cell, and are in the queue. -/
structure Relaxed (e : Entry) (nexts : List Cell) (s t : Search) : Prop where
  settled : t.settled = s.settled
  steps : ∀ c, t.steps c =
    if c ∈ nexts ∧ s.steps c = none then some (e.steps + 1) else s.steps c
  before : ∀ c, t.before c = if c ∈ nexts ∧ s.steps c = none then some e.cell else s.before c
  queue : ∀ f, f ∈ t.queue ↔
    f ∈ s.queue ∨ f.steps = e.steps + 1 ∧ f.cell ∈ nexts ∧ s.steps f.cell = none

/-- Cells that can be reached by no fewer steps are reached one after the other. -/
theorem relaxed_foldl (hsettled : ∀ c ∈ s.settled, ∃ n, s.steps c = some n)
    (hsteps : ∀ c ∈ nexts, ∀ m, s.steps c = some m → m ≤ e.steps + 1) :
    Relaxed e nexts s (nexts.foldl (Search.relax e) s) := by
  induction nexts generalizing s with
  | nil => exact ⟨rfl, by simp, by simp, by simp⟩
  | cons b rest ih =>
    rw [List.foldl_cons]
    cases hb : s.steps b with
    | some m =>
      -- a cell that was reached is passed over
      rw [relax_of_some hb (hsteps b List.mem_cons_self m hb)]
      obtain ⟨hset, hst, hbefore, hqueue⟩ :=
        ih hsettled fun c hc => hsteps c (List.mem_cons_of_mem b hc)
      refine ⟨hset, fun c => ?_, fun c => ?_, fun f => ?_⟩
      · rw [hst c]
        by_cases hcb : c = b <;> simp [hcb, hb]
      · rw [hbefore c]
        by_cases hcb : c = b <;> simp [hcb, hb]
      · rw [hqueue f]
        by_cases hfb : f.cell = b <;> simp [hfb, hb]
    | none =>
      have hbsettled : b ∉ s.settled := by
        intro hmem
        obtain ⟨n, hn⟩ := hsettled b hmem
        simp [hb] at hn
      have hsettled' : ∀ c ∈ (s.reach e b).settled, ∃ n, (s.reach e b).steps c = some n := by
        intro c hc
        rw [steps_reach, if_neg (ne_of_mem_of_not_mem hc hbsettled)]
        exact hsettled c hc
      have hsteps' : ∀ c ∈ rest, ∀ m, (s.reach e b).steps c = some m → m ≤ e.steps + 1 := by
        intro c hc m hm
        rw [steps_reach] at hm
        split at hm
        · exact (Option.some.inj hm).ge
        · exact hsteps c (List.mem_cons_of_mem b hc) m hm
      rw [relax_of_none hbsettled hb]
      obtain ⟨hset, hst, hbefore, hqueue⟩ := ih hsettled' hsteps'
      refine ⟨hset, fun c => ?_, fun c => ?_, fun f => ?_⟩
      · rw [hst c, steps_reach]
        by_cases hcb : c = b <;> simp [hcb, hb]
      · rw [hbefore c, before_reach, steps_reach]
        by_cases hcb : c = b <;> simp [hcb, hb]
      · rw [hqueue f, mem_queue_reach, steps_reach, Entry.ext_iff]
        by_cases hfb : f.cell = b
        · simp [hfb, hb, or_comm]
        · simp [hfb]

namespace Relaxed

variable {t : Search}

theorem keep (h : Relaxed e nexts s t) (hn : s.steps c = some n) :
    t.steps c = some n ∧ t.before c = s.before c := by
  have hnot : ¬(c ∈ nexts ∧ s.steps c = none) := by simp [hn]
  rw [h.steps, h.before, if_neg hnot, if_neg hnot]
  exact ⟨hn, rfl⟩

theorem reach (h : Relaxed e nexts s t) (hc : c ∈ nexts) (hnone : s.steps c = none) :
    t.steps c = some (e.steps + 1) ∧ t.before c = some e.cell := by
  rw [h.steps, h.before, if_pos ⟨hc, hnone⟩, if_pos ⟨hc, hnone⟩]
  exact ⟨rfl, rfl⟩

theorem cases (h : Relaxed e nexts s t) (hn : t.steps c = some n) :
    s.steps c = some n ∨ (c ∈ nexts ∧ s.steps c = none ∧ n = e.steps + 1) := by
  rw [h.steps] at hn
  split at hn
  · rename_i hc
    exact .inr ⟨hc.1, hc.2, (Option.some.inj hn).symm⟩
  · exact .inl hn

end Relaxed

end Relax

/-! ### The outcomes of a round -/

theorem round_cases {s t : Search} (h : g.round goal s = some t) :
    ∃ e, s.queue.argmin Entry.rank = some e ∧
      ((e.cell ∈ s.settled ∧ t = { s with queue := s.queue.erase e }) ∨
        (e.cell ∉ s.settled ∧ t = (g.onward e.cell).foldl (Search.relax e) (s.settle e))) := by
  unfold round at h
  split at h
  · simp at h
  · rename_i e he
    refine ⟨e, he, ?_⟩
    split at h
    · simp at h
    · split at h
      · rename_i hsettled
        exact .inl ⟨hsettled, (Option.some.inj h).symm⟩
      · rename_i hsettled
        exact .inr ⟨hsettled, (Option.some.inj h).symm⟩

theorem round_eq_none {s : Search} (h : g.round goal s = none) {e : Entry}
    (he : s.queue.argmin Entry.rank = some e) : e.cell = goal := by
  unfold round at h
  rw [he] at h
  by_contra hgoal
  simp only [if_neg hgoal] at h
  split at h <;> simp at h

/-! ### What every round keeps -/

/-- **A sound search**: what was reached is known with its distance, and the rest of the search is
as it must be for the queue to hold the next cell. -/
structure Sound (g : AccessGrid α) (start : Cell) (s : Search) : Prop where
  origin : s.steps start = some 0
  exact : ∀ c n, s.steps c = some n → g.Distance start n c
  queued : ∀ c n, s.steps c = some n → c ∉ s.settled → ⟨n, c⟩ ∈ s.queue
  known : ∀ e ∈ s.queue, s.steps e.cell = some e.steps
  reached : ∀ c ∈ s.settled, ∃ n, s.steps c = some n
  closed : ∀ a ∈ s.settled, ∀ b ∈ g.successors a, ∃ n, s.steps b = some n
  trail : ∀ c n, s.steps c = some (n + 1) →
    ∃ p, s.before c = some p ∧ s.steps p = some n ∧ g.Foremost start n p c
  fresh : ∀ c, s.steps c = none ∨ c = start → s.before c = none

theorem Entry.rank_lt_iff {e f : Entry} : e.rank < f.rank ↔
    e.steps < f.steps ∨ e.steps = f.steps ∧ e.cell.place < f.cell.place :=
  Prod.Lex.toLex_lt_toLex

theorem sound_init (start : Cell) : g.Sound start (.init start) := by
  have hsteps : ∀ c n, (Search.init start).steps c = some n ↔ c = start ∧ n = 0 := by
    intro c n
    simp only [Search.init, Function.update_apply]
    by_cases hc : c = start <;> simp [hc, eq_comm]
  refine ⟨(hsteps start 0).2 ⟨rfl, rfl⟩, ?_, ?_, ?_, ?_, ?_, ?_, ?_⟩
  · intro c n hn
    obtain ⟨rfl, rfl⟩ := (hsteps c n).1 hn
    exact Distance.zero_iff.2 rfl
  · intro c n hn _
    obtain ⟨rfl, rfl⟩ := (hsteps c n).1 hn
    exact List.mem_singleton_self _
  · intro e he
    rw [List.mem_singleton.1 he]
    exact (hsteps start 0).2 ⟨rfl, rfl⟩
  · intro c hc
    exact absurd hc (Finset.notMem_empty c)
  · intro a ha
    exact absurd ha (Finset.notMem_empty a)
  · intro c n hn
    have hzero := ((hsteps c (n + 1)).1 hn).2
    omega
  · intro c _
    rfl

namespace Sound

variable {s t : Search} {e : Entry}

/-- **A cell that is not settled keeps a place in the queue**, for itself or for a cell on the way
to it that comes out no later. -/
theorem exists_queued (h : g.Sound start s) (hc : g.Distance start n c) (hsettled : c ∉ s.settled) :
    ∃ e ∈ s.queue, e.cell ∉ s.settled ∧ e.rank ≤ Entry.rank ⟨n, c⟩ := by
  induction n generalizing c with
  | zero =>
    obtain rfl := Distance.zero_iff.1 hc
    exact ⟨_, h.queued c 0 h.origin hsettled, hsettled, le_rfl⟩
  | succ n ih =>
    obtain ⟨a, ha, hstep⟩ := hc.pred
    by_cases hasettled : a ∈ s.settled
    · -- the cell was reached from the one before it, so it is in the queue itself
      obtain ⟨m, hm⟩ := h.closed a hasettled c hstep
      obtain rfl := (h.exact c m hm).unique hc
      exact ⟨_, h.queued c _ hm hsettled, hsettled, le_rfl⟩
    · obtain ⟨e, he, hesettled, hle⟩ := ih ha hasettled
      have hlt : Entry.rank ⟨n, a⟩ < Entry.rank ⟨n + 1, c⟩ :=
        Entry.rank_lt_iff.2 (.inl (Nat.lt_succ_self n))
      exact ⟨e, he, hesettled, hle.trans hlt.le⟩

/-- Cells that come before the first entry of the queue are settled. -/
theorem settled_of_lt (h : g.Sound start s) (he : s.queue.argmin Entry.rank = some e)
    (hq : g.Distance start k q) (hlt : Entry.rank ⟨k, q⟩ < e.rank) : q ∈ s.settled := by
  by_contra hsettled
  obtain ⟨f, hf, -, hle⟩ := h.exists_queued hq hsettled
  have hmin : e.rank ≤ f.rank := List.le_of_mem_argmin hf he
  exact absurd (hmin.trans hle) (not_le.2 hlt)

/-- **A cell that is reached for the first time** is one step further than the first entry of the
queue, and the cell of that entry is the foremost one before it. -/
theorem foremost (h : g.Sound start s) (he : s.queue.argmin Entry.rank = some e)
    (hstep : b ∈ g.successors e.cell) (hb : s.steps b = none) :
    g.Distance start (e.steps + 1) b ∧ g.Foremost start e.steps e.cell b := by
  have hcell := h.exact e.cell e.steps (h.known e (List.argmin_mem he))
  -- a cell before `b` that came out earlier would have reached it
  have hlater : ∀ q k, g.Distance start k q → b ∈ g.successors q → e.rank ≤ Entry.rank ⟨k, q⟩ := by
    intro q k hq hqstep
    by_contra hlt
    obtain ⟨n, hn⟩ := h.closed q (h.settled_of_lt he hq (not_le.1 hlt)) b hqstep
    simp [hb] at hn
  constructor
  · refine ⟨hcell.walk.step hstep, fun m hm => ?_⟩
    by_contra hlt
    obtain ⟨k, hk, hdistance⟩ := hm.distance
    cases k with
    | zero =>
      rw [Distance.zero_iff.1 hdistance, h.origin] at hb
      simp at hb
    | succ k =>
      obtain ⟨q, hq, hqstep⟩ := hdistance.pred
      have hlt' : Entry.rank ⟨k, q⟩ < e.rank := Entry.rank_lt_iff.2 (.inl (by simp only; omega))
      exact absurd (hlater q k hq hqstep) (not_le.2 hlt')
  · refine ⟨hcell, hstep, fun q hq hqstep => ?_⟩
    by_contra hlt
    have hlt' : Entry.rank ⟨e.steps, q⟩ < e.rank := Entry.rank_lt_iff.2 (.inr ⟨rfl, not_le.1 hlt⟩)
    exact absurd (hlater q e.steps hq hqstep) (not_le.2 hlt')

/-- Dropping an entry whose cell is settled keeps the search sound. -/
theorem drop (h : g.Sound start s) (hsettled : e.cell ∈ s.settled) :
    g.Sound start { s with queue := s.queue.erase e } := by
  refine ⟨h.origin, h.exact, ?_, ?_, h.reached, h.closed, h.trail, h.fresh⟩
  · intro c n hn hc
    refine (List.mem_erase_of_ne ?_).2 (h.queued c n hn hc)
    rintro rfl
    exact hc hsettled
  · intro f hf
    exact h.known f (List.mem_of_mem_erase hf)

theorem exists_steps (h : g.Sound start s) (he : s.queue.argmin Entry.rank = some e)
    (hc : c ∈ (s.settle e).settled) : ∃ n, (s.settle e).steps c = some n := by
  rcases Finset.mem_insert.1 hc with rfl | hc
  · exact ⟨e.steps, h.known e (List.argmin_mem he)⟩
  · exact h.reached c hc

/-- The neighbours of the first cell of the queue are reached from it, those that were not reached
before. -/
theorem relaxed (h : g.Sound start s) (he : s.queue.argmin Entry.rank = some e) :
    Relaxed e (g.onward e.cell) (s.settle e)
      ((g.onward e.cell).foldl (Search.relax e) (s.settle e)) := by
  refine relaxed_foldl (fun c => h.exists_steps he) fun c hc m hm => ?_
  have hcell := h.exact e.cell e.steps (h.known e (List.argmin_mem he))
  exact (h.exact c m hm).least _ (hcell.walk.step (mem_onward.1 hc))

/-- **Settling the first cell of the queue** and reaching its neighbours keeps the search sound. -/
theorem settle (h : g.Sound start s) (he : s.queue.argmin Entry.rank = some e) :
    g.Sound start ((g.onward e.cell).foldl (Search.relax e) (s.settle e)) := by
  have hcell : s.steps e.cell = some e.steps := h.known e (List.argmin_mem he)
  have ht := h.relaxed he
  generalize (g.onward e.cell).foldl (Search.relax e) (s.settle e) = t at ht
  refine ⟨(ht.keep h.origin).1, ?_, ?_, ?_, ?_, ?_, ?_, ?_⟩
  · -- exact
    intro c n hn
    rcases ht.cases hn with hn | ⟨hc, hnone, rfl⟩
    · exact h.exact c n hn
    · exact (h.foremost he (mem_onward.1 hc) hnone).1
  · -- queued
    intro c n hn hc
    rw [ht.settled, Search.settle, Finset.mem_insert, not_or] at hc
    rw [ht.queue]
    rcases ht.cases hn with hn | ⟨hmem, hnone, rfl⟩
    · left
      refine (List.mem_erase_of_ne ?_).2 (h.queued c n hn hc.2)
      rintro rfl
      exact hc.1 rfl
    · exact .inr ⟨rfl, hmem, hnone⟩
  · -- known
    intro f hf
    rcases (ht.queue f).1 hf with hf | ⟨hf, hmem, hnone⟩
    · exact (ht.keep (h.known f (List.mem_of_mem_erase hf))).1
    · rw [hf]
      exact (ht.reach hmem hnone).1
  · -- reached
    intro c hc
    rw [ht.settled] at hc
    obtain ⟨n, hn⟩ := h.exists_steps he hc
    exact ⟨n, (ht.keep hn).1⟩
  · -- closed
    intro a ha b hb
    cases hsb : s.steps b with
    | some n => exact ⟨n, (ht.keep hsb).1⟩
    | none =>
      rw [ht.settled] at ha
      rcases Finset.mem_insert.1 ha with rfl | ha
      · exact ⟨_, (ht.reach (mem_onward.2 hb) hsb).1⟩
      · obtain ⟨n, hn⟩ := h.closed a ha b hb
        simp [hsb] at hn
  · -- trail
    intro c n hn
    rcases ht.cases hn with hn | ⟨hc, hnone, hsucc⟩
    · obtain ⟨p, hp, hpn, hforemost⟩ := h.trail c n hn
      exact ⟨p, (ht.keep hn).2.trans hp, (ht.keep hpn).1, hforemost⟩
    · obtain rfl := Nat.succ.inj hsucc
      exact ⟨e.cell, (ht.reach hc hnone).2, (ht.keep hcell).1,
        (h.foremost he (mem_onward.1 hc) hnone).2⟩
  · -- fresh
    rintro c (hnone | rfl)
    · rw [ht.steps] at hnone
      split at hnone
      · simp at hnone
      · rename_i hnot
        rw [ht.before, if_neg hnot]
        exact h.fresh c (.inl hnone)
    · rw [(ht.keep h.origin).2]
      exact h.fresh _ (.inr rfl)

/-- **Every round keeps a search sound.** -/
theorem round (h : g.Sound start s) (hround : g.round goal s = some t) : g.Sound start t := by
  obtain ⟨e, he, ⟨hsettled, rfl⟩ | ⟨-, rfl⟩⟩ := round_cases hround
  · exact h.drop hsettled
  · exact h.settle he

end Sound

/-! ### The end of a search -/

/-- The cells of a grid that are not settled. -/
def pending (g : AccessGrid α) (s : Search) : Finset Cell :=
  (block 0 g.width 0 g.height).toFinset \ s.settled

/-- A cell of the grid that is settled is one less to settle. -/
theorem card_pending_lt {s t : Search} (hc : g.contains c = true) (hsettled : c ∉ s.settled)
    (ht : t.settled = insert c s.settled) : (g.pending t).card < (g.pending s).card := by
  obtain ⟨hx, hy⟩ := contains_iff.1 hc
  have hblock : c ∈ block 0 g.width 0 g.height := mem_block.2 (by omega)
  have hmem : c ∈ g.pending s := Finset.mem_sdiff.2 ⟨List.mem_toFinset.2 hblock, hsettled⟩
  have hpending : g.pending t = (g.pending s).erase c := by
    unfold pending
    rw [ht, Finset.sdiff_insert]
  rw [hpending]
  exact Finset.card_erase_lt_of_mem hmem

namespace Sound

variable {s t : Search}

/-- A round settles a cell or shortens the queue. -/
theorem round_lt (hs : g.contains start = true) (h : g.Sound start s)
    (hround : g.round goal s = some t) :
    Prod.Lex (· < ·) (· < ·) ((g.pending t).card, t.queue.length)
      ((g.pending s).card, s.queue.length) := by
  obtain ⟨e, he, ⟨hsettled, rfl⟩ | ⟨hsettled, rfl⟩⟩ := round_cases hround
  · have hmem := List.argmin_mem he
    have hlength := List.length_erase_of_mem hmem
    have hpos := List.length_pos_of_mem hmem
    exact .right _ (by simp only; omega)
  · have hcell := h.exact e.cell e.steps (h.known e (List.argmin_mem he))
    exact .left _ _ (card_pending_lt (hcell.walk.contains hs) hsettled (h.relaxed he).settled)

/-- **A search comes to an end**, and what it knows then is sound. -/
theorem exists_last {s : Search} (h : g.Sound start s) (goal : Cell)
    (hs : g.contains start = true) :
    ∃ t, Reaches (g.round goal) s t ∧ g.round goal t = none ∧ g.Sound start t := by
  cases hround : g.round goal s with
  | none => exact ⟨s, .refl, hround, h⟩
  | some t =>
    obtain ⟨last, hreach, hend, hlast⟩ := (h.round hround).exists_last goal hs
    exact ⟨last, .head hround hreach, hend, hlast⟩
termination_by ((g.pending s).card, s.queue.length)
decreasing_by exact h.round_lt hs hround

/-- At the end the goal was reached, if it can be. -/
theorem steps_goal (h : g.Sound start s) (hend : g.round goal s = none)
    (hgoal : g.Distance start k goal) : s.steps goal = some k := by
  obtain ⟨n, hn⟩ : ∃ n, s.steps goal = some n := by
    by_cases hsettled : goal ∈ s.settled
    · exact h.reached goal hsettled
    · -- a place in the queue is kept for the goal, so the queue is not empty
      obtain ⟨f, hf, -, -⟩ := h.exists_queued hgoal hsettled
      cases he : s.queue.argmin Entry.rank with
      | none => simp [List.argmin_eq_none.1 he] at hf
      | some e => exact ⟨e.steps, round_eq_none hend he ▸ h.known e (List.argmin_mem he)⟩
  rw [hn, (h.exact goal n hn).unique hgoal]

/-- **The way back** from a cell that was reached ends at the start, and is the canonical path. -/
theorem exists_way (h : g.Sound start s) (hc : s.steps c = some n) (after : List Cell) :
    ∃ path, Reaches (back s.before) (c, c :: after) (start, path ++ after) ∧
      g.Canonical start c path := by
  induction n generalizing c after with
  | zero =>
    obtain rfl := Distance.zero_iff.1 (h.exact c 0 hc)
    exact ⟨[c], .refl, canonical_singleton c⟩
  | succ n ih =>
    obtain ⟨p, hp, hpn, hforemost⟩ := h.trail c n hc
    obtain ⟨path, hreach, hpath⟩ := ih hpn (c :: after)
    have hback : back s.before (c, c :: after) = some (p, p :: c :: after) := by
      rw [back, hp, Option.map_some]
    refine ⟨path ++ [c], ?_, hpath.snoc ⟨n, h.exact c (n + 1) hc, hforemost⟩⟩
    rw [List.append_assoc, List.singleton_append]
    exact .head hback hreach

end Sound

/-- **Every search with a queue ends, with the shortest path that the flood finds.** -/
theorem queueSearch_eq (g : AccessGrid α) (start goal : Cell) :
    g.queueSearch start goal = Part.some (g.shortestPath start goal) := by
  unfold queueSearch
  by_cases hin : (g.contains start && g.contains goal) = true
  swap
  · rw [if_neg hin, shortestPath, if_neg hin]
  have hs : g.contains start = true := (Bool.and_eq_true_iff.1 hin).1
  rw [if_pos hin]
  by_cases hsame : start = goal
  · subst hsame
    rw [if_pos rfl, shortestPath_eq_some hs .here (canonical_singleton start)]
  · obtain ⟨s, hreach, hend, hsound⟩ := (sound_init start).exists_last goal hs
    rw [if_neg hsame, Part.eq_some_iff.2 (mem_eval.2 ⟨hreach, hend⟩), Part.bind_some]
    cases hsteps : s.steps goal with
    | none =>
      rw [hsound.fresh goal (.inl hsteps)]
      have hno : ∀ n, ¬g.Walk start n goal := by
        intro n hn
        obtain ⟨k, -, hk⟩ := hn.distance
        simp [hsound.steps_goal hend hk] at hsteps
      rw [shortestPath_eq_none hno]
    | some n =>
      have hdistance := hsound.exact goal n hsteps
      obtain ⟨n, rfl⟩ : ∃ m, n = m + 1 := by
        refine Nat.exists_eq_succ_of_ne_zero fun hzero => hsame ?_
        exact (Distance.zero_iff.1 (hzero ▸ hdistance)).symm
      obtain ⟨p, hp, -⟩ := hsound.trail goal n hsteps
      obtain ⟨path, hway, hpath⟩ := hsound.exists_way hsteps []
      rw [List.append_nil] at hway
      have hstart : back s.before (start, path) = none := by
        rw [back, hsound.fresh start (.inr rfl), Option.map_none]
      simp only [hp]
      rw [Part.eq_some_iff.2 (mem_eval.2 ⟨hway, hstart⟩), Part.map_some,
        shortestPath_eq_some hs hdistance.walk hpath]

/-- **Of several shortest paths the canonical one is found.** Where there is a way from a cell of
the grid, a search with a queue ends with a path, the flood finds the same one, and on it every cell
before the last is the foremost of all cells that are nearer to the start by one step than its
successor and from which a step leads to it. -/
theorem queueSearch_foremost (hs : g.contains start = true)
    (hway : ∃ way, g.Leads start goal way) :
    ∃ path, g.shortestPath start goal = some path ∧
      g.queueSearch start goal = Part.some (some path) ∧ g.Canonical start goal path := by
  obtain ⟨way, hway⟩ := hway
  obtain ⟨n, -, hwalk⟩ := hway.walk
  obtain ⟨path, hpath⟩ := exists_shortestPath hs hwalk
  exact ⟨path, hpath, hpath ▸ queueSearch_eq g start goal, canonical_of_shortestPath hpath⟩

/-- Three columns and three rows without any obstacle. -/
def meadow : AccessGrid Rat where
  width := 3
  height := 3
  cellSide := 1
  cells := Array.replicate 9 ⟨true, true, true, true⟩
  size_cells := by decide

/-- Of six shortest paths from corner to corner, the one that goes down first. -/
theorem meadow_foremost : meadow.queueSearch ⟨0, 0⟩ ⟨2, 2⟩ =
      Part.some (some [⟨0, 0⟩, ⟨0, 1⟩, ⟨0, 2⟩, ⟨1, 2⟩, ⟨2, 2⟩]) ∧
    meadow.Canonical ⟨0, 0⟩ ⟨2, 2⟩ [⟨0, 0⟩, ⟨0, 1⟩, ⟨0, 2⟩, ⟨1, 2⟩, ⟨2, 2⟩] := by
  have hfound : meadow.shortestPath ⟨0, 0⟩ ⟨2, 2⟩ =
      some [⟨0, 0⟩, ⟨0, 1⟩, ⟨0, 2⟩, ⟨1, 2⟩, ⟨2, 2⟩] := by decide +kernel
  have hway : meadow.Leads ⟨0, 0⟩ ⟨2, 2⟩ [⟨0, 0⟩, ⟨1, 0⟩, ⟨2, 0⟩, ⟨2, 1⟩, ⟨2, 2⟩] := by
    refine ⟨rfl, rfl, ?_⟩
    simp only [List.isChain_cons_cons, List.isChain_singleton, and_true]
    exact ⟨⟨.right, by decide⟩, ⟨.right, by decide⟩, ⟨.down, by decide⟩, ⟨.down, by decide⟩⟩
  obtain ⟨path, hpath, hqueue, hcanonical⟩ :=
    queueSearch_foremost (show meadow.contains ⟨0, 0⟩ = true by decide) ⟨_, hway⟩
  obtain rfl := Option.some.inj (hpath.symm.trans hfound)
  exact ⟨hqueue, hcanonical⟩

end Schematic.AccessGrid
