import Schematic.Proofs.Picking

/-!
# What skipped connectors leave behind

A connector claims its cells before a way between them is looked for, and what it has claimed it
keeps, whether or not there is anything to draw. So a connector that is left out takes cells away
from later ones, unless it found none that was free.

* `SolvedGraph.routeAll_eq`: all connectors are routed in this way, one after the other.
* `Register.Gains`: the cells that a register has more than another one.
* `SolvedGraph.Leaves`: what a connector leaves in the register.
* `SolvedGraph.routeFrom_congr_claimed`: later connectors depend on no more than the cells that are
  claimed.
* `SolvedGraph.route_leaves`: both of every connector, drawn or not.
* `SolvedGraph.touching_takes`: a skipped connector that takes a cell away from a later one.
-/

namespace Schematic

/-! ### What a pick adds to the register -/

namespace Register

/-- **The cells that a register gains**: it has these claimed, those that were claimed before, and
no others. -/
def Gains (r r' : Register) (cells : List Cell) : Prop :=
  ∀ c, c ∈ r'.claimed ↔ c ∈ cells ∨ c ∈ r.claimed

variable {r r' r'' : Register} {cells cells' : List Cell} {c : Cell}

theorem Gains.refl (r : Register) : r.Gains r [] := fun c => by simp

theorem gains_nil_iff : r.Gains r' [] ↔ ∀ c, c ∈ r'.claimed ↔ c ∈ r.claimed := by
  simp [Gains]

theorem Gains.trans (h : r.Gains r' cells) (h' : r'.Gains r'' cells') :
    r.Gains r'' (cells ++ cells') := fun c => by
  rw [h' c, h c, List.mem_append]
  tauto

/-- A register gains nothing in two steps if it gains nothing in either. -/
theorem Gains.nil_iff (h : r.Gains r' cells) (h' : r'.Gains r'' cells') :
    r.Gains r'' [] ↔ r.Gains r' [] ∧ r'.Gains r'' [] := by
  constructor
  · intro hnone
    -- what the first step added would still be there after the second
    have hfirst : r.Gains r' [] := fun c => by
      refine ⟨fun hc => (hnone c).1 ((h' c).2 (Or.inr hc)), fun hc => (h c).2 (Or.inr ?_)⟩
      simpa using hc
    refine ⟨hfirst, fun c => ?_⟩
    rw [hnone c, hfirst c]
    simp
  · rintro ⟨hfirst, hsecond⟩
    exact hfirst.trans hsecond

/-- A pick adds the cell that it returns, if there is one. -/
theorem gains_pick (cells : List Cell) (r : Register) :
    r.Gains (pick cells r).2 (pick cells r).1.toList := fun c => by
  rw [mem_claimed_pick, Option.mem_toList]

theorem pick_nil (r : Register) : pick [] r = (none, r) := rfl

theorem pick_eq_none_iff : (pick cells r).1 = none ↔ cells = [] := by
  rw [pick_fst, Option.or_eq_none_iff, List.head?_eq_none_iff]
  refine and_iff_right_of_imp ?_
  rintro rfl
  rfl

/-- **A pick adds nothing** exactly where no cell is free. -/
theorem gains_pick_nil_iff : r.Gains (pick cells r).2 [] ↔ ∀ c ∈ cells, c ∈ r.claimed := by
  constructor
  · intro hnone c hc
    by_contra hfree
    -- the first free cell would have been picked, and it would be claimed now
    obtain ⟨c', hfind⟩ : ∃ c', cells.find? (fun c => !r.isUsed c) = some c' := by
      rw [← Option.isSome_iff_exists, List.find?_isSome]
      exact ⟨c, hc, by simpa [isUsed] using hfree⟩
    have hpick : (pick cells r).1 = some c' := by rw [pick_fst, hfind, Option.some_or]
    have hclaimed := (hnone c').1 (mem_claimed_pick.2 (Or.inl hpick))
    have hnew : c' ∉ r.claimed := by simpa [isUsed] using List.find?_some hfind
    simp [hnew] at hclaimed
  · intro hall c
    rw [mem_claimed_pick]
    refine ⟨?_, ?_⟩
    · rintro (hpick | hc)
      · exact Or.inr (hall c (pick_mem hpick))
      · exact Or.inr hc
    · rintro (hc | hc)
      · simp at hc
      · exact Or.inr hc

/-- A pick depends on what is claimed, and not on the order in which it was. -/
theorem Gains.pick_congr (h : r.Gains r' []) (cells : List Cell) :
    (pick cells r').1 = (pick cells r).1 ∧ (pick cells r).2.Gains (pick cells r').2 [] := by
  rw [gains_nil_iff] at h
  have hused : r'.isUsed = r.isUsed := by
    funext c
    rw [Bool.eq_iff_iff]
    simpa [isUsed] using h c
  have hpick : (pick cells r').1 = (pick cells r).1 := by rw [pick_fst, pick_fst, hused]
  refine ⟨hpick, gains_nil_iff.2 fun c => ?_⟩
  rw [mem_claimed_pick, mem_claimed_pick, hpick, h c]

end Register

namespace SolvedGraph

variable {α : Type} [Scalar α] {s : SolvedGraph α} {settings : LayoutSettings α} {index : ℕ}
  {arrow : Arrow α} {r r' : Register} {source target : Rect α} {cells : List Cell × List Cell}

/-! ### One connector after the other -/

theorem route_eq (r : Register) : s.route settings index arrow r =
    let attempt := s.routeArrow settings index arrow r
    (attempt.1.bind (·.connector? index arrow), attempt.2) := rfl

theorem mapM_route_cons (a : Arrow α × ℕ) (rest : List (Arrow α × ℕ)) :
    ((a :: rest).mapM fun a => s.route settings a.2 a.1) r =
      let first := s.route settings a.2 a.1 r
      let later := (rest.mapM fun a => s.route settings a.2 a.1) first.2
      (first.1 :: later.1, later.2) := by
  rw [List.mapM_cons]
  rfl

/-- What comes of connectors from a number on, and the register that they leave. -/
theorem mapM_route (s : SolvedGraph α) (settings : LayoutSettings α) (index : ℕ)
    (arrows : List (Arrow α)) (r : Register) :
    ((arrows.zipIdx index).mapM fun a => s.route settings a.2 a.1) r =
      let attempts := s.routeFrom settings index arrows r
      ((attempts.1.zipIdx index).map fun a => a.1.2.bind (·.connector? a.2 a.1.1), attempts.2) := by
  induction arrows generalizing index r with
  | nil => rfl
  | cons arrow rest ih =>
    rw [List.zipIdx_cons, mapM_route_cons, routeFrom_cons]
    dsimp only
    rw [ih]
    rfl

/-- **Routing all connectors** is routing one after the other, and keeping what is drawn. -/
theorem routeAll_eq (s : SolvedGraph α) (settings : LayoutSettings α) :
    s.routeAll settings =
      ((s.graph.arrows.zipIdx.mapM fun a => s.route settings a.2 a.1) .empty).1.reduceOption := by
  rw [mapM_route, List.reduceOption, List.filterMap_map]
  rfl

/-! ### What a connector leaves in the register -/

/-- **What a connector leaves**, given the candidates for its two ends. Without a cell of the source
nothing is claimed, and without a cell of the target only one of the source. Otherwise two cells
are, whatever comes of the connector. The register stays as it was only where all cells that could
have been picked were claimed before. -/
structure Leaves (cells : List Cell × List Cell) (r : Register)
    (out : Option (Connector α) × Register) : Prop where
  neither : cells.1 = [] → out = (none, r)
  onlySource : cells.1 ≠ [] → cells.2 = [] → out.1 = none ∧
    ∃ a ∈ cells.1, (Register.pick cells.1 r).1 = some a ∧ r.Gains out.2 [a]
  both : cells.1 ≠ [] → cells.2 ≠ [] → ∃ a ∈ cells.1, ∃ b ∈ cells.2,
    (Register.pick cells.1 r).1 = some a ∧
      (Register.pick cells.2 (Register.pick cells.1 r).2).1 = some b ∧ r.Gains out.2 [a, b]
  nothing : r.Gains out.2 [] ↔
    (∀ c ∈ cells.1, c ∈ r.claimed) ∧ (cells.1 ≠ [] → ∀ c ∈ cells.2, c ∈ r.claimed)

/-- Nothing is drawn of a connector without ends. -/
theorem route_of_ends (hs : s.frame? arrow.source = some source)
    (ht : s.frame? arrow.target = some target) (r : Register) :
    let claim := claimEnds ((s.grid settings index arrow.target).candidates source target) r
    (s.route settings index arrow r).2 = claim.2 ∧
      (claim.1 = none → (s.route settings index arrow r).1 = none) := by
  rw [route_eq, routeArrow_eq hs ht]
  refine ⟨rfl, fun hnone => ?_⟩
  dsimp only at hnone ⊢
  rw [hnone]
  rfl

/-- The register after both claims. -/
theorem claimEnds_snd (h : cells.1 ≠ []) (r : Register) :
    (claimEnds cells r).2 = (Register.pick cells.2 (Register.pick cells.1 r).2).2 := by
  obtain ⟨a, ha⟩ := Register.exists_pick h r
  rw [claimEnds_of_some ha]

/-- Both claims add nothing exactly where no cell was free before. -/
theorem gains_claimEnds_nil_iff (h : cells.1 ≠ []) : r.Gains (claimEnds cells r).2 [] ↔
    (∀ c ∈ cells.1, c ∈ r.claimed) ∧ ∀ c ∈ cells.2, c ∈ r.claimed := by
  rw [claimEnds_snd h, (Register.gains_pick _ _).nil_iff (Register.gains_pick _ _),
    Register.gains_pick_nil_iff]
  refine and_congr_right fun hall => ?_
  -- the first claim has added nothing, so it leaves the second one the same cells
  have hsame : r.Gains (Register.pick cells.1 r).2 [] := Register.gains_pick_nil_iff.2 hall
  simp only [Register.gains_pick_nil_iff, hsame _, List.not_mem_nil, false_or]

/-! ### Registers with the same cells -/

theorem claimEnds_congr (h : r.Gains r' []) (cells : List Cell × List Cell) :
    (claimEnds cells r').1 = (claimEnds cells r).1 ∧
      (claimEnds cells r).2.Gains (claimEnds cells r').2 [] := by
  obtain ⟨hfirst, hleft⟩ := h.pick_congr cells.1
  cases hstart : (Register.pick cells.1 r).1 with
  | none =>
    rw [claimEnds_of_none hstart, claimEnds_of_none (hfirst.trans hstart)]
    exact ⟨rfl, hleft⟩
  | some start =>
    obtain ⟨hsecond, hleft'⟩ := hleft.pick_congr cells.2
    rw [claimEnds_of_some hstart, claimEnds_of_some (hfirst.trans hstart)]
    exact ⟨congrArg (Option.map fun stop => (start, stop)) hsecond, hleft'⟩

/-- One attempt is the same from registers with the same cells. -/
theorem routeArrow_congr (h : r.Gains r' []) (s : SolvedGraph α) (settings : LayoutSettings α)
    (index : ℕ) (arrow : Arrow α) :
    (s.routeArrow settings index arrow r').1 = (s.routeArrow settings index arrow r).1 ∧
      (s.routeArrow settings index arrow r).2.Gains (s.routeArrow settings index arrow r').2 [] := by
  by_cases hmissing : s.frame? arrow.source = none ∨ s.frame? arrow.target = none
  · rw [routeArrow_of_missing hmissing, routeArrow_of_missing hmissing]
    exact ⟨rfl, h⟩
  · rw [not_or] at hmissing
    obtain ⟨source, hs⟩ := Option.ne_none_iff_exists'.1 hmissing.1
    obtain ⟨target, ht⟩ := Option.ne_none_iff_exists'.1 hmissing.2
    obtain ⟨hends, hleft⟩ :=
      claimEnds_congr h ((s.grid settings index arrow.target).candidates source target)
    rw [routeArrow_eq hs ht, routeArrow_eq hs ht]
    exact ⟨by dsimp only; rw [hends], hleft⟩

/-- **All attempts** are the same from registers with the same cells. -/
theorem routeFrom_congr_claimed (h : r.Gains r' []) (s : SolvedGraph α)
    (settings : LayoutSettings α) (index : ℕ) (arrows : List (Arrow α)) :
    (s.routeFrom settings index arrows r').1 = (s.routeFrom settings index arrows r).1 := by
  induction arrows generalizing index r r' with
  | nil => rfl
  | cons arrow rest ih =>
    obtain ⟨hattempt, hleft⟩ := routeArrow_congr h s settings index arrow
    simp only [routeFrom_cons, hattempt, ih hleft]

/-! ### Every connector -/

omit [Scalar α] in
theorem leaves_of_claim {out : Option (Connector α) × Register}
    (hregister : out.2 = (claimEnds cells r).2)
    (hdrawn : (claimEnds cells r).1 = none → out.1 = none) : Leaves cells r out := by
  by_cases hsource : cells.1 = []
  · have hclaim : claimEnds cells r = (none, r) := by
      rw [claimEnds_of_none (Register.pick_eq_none_iff.2 hsource), hsource, Register.pick_nil]
    rw [hclaim] at hregister hdrawn
    obtain rfl : out = (none, r) := Prod.ext (hdrawn rfl) hregister
    exact ⟨fun _ => rfl, fun h => absurd hsource h, fun h => absurd hsource h, by
      simp [hsource, Register.Gains.refl]⟩
  obtain ⟨a, ha⟩ := Register.exists_pick hsource r
  have hfirst := Register.gains_pick cells.1 r
  rw [ha, Option.toList_some] at hfirst
  refine ⟨fun h => absurd h hsource, fun _ htarget => ⟨hdrawn ?_, a, Register.pick_mem ha, ha, ?_⟩,
    fun _ htarget => ?_, ?_⟩
  · rw [claimEnds_fst, ha, htarget, Register.pick_nil]
    rfl
  · rw [hregister, claimEnds_snd hsource, htarget, Register.pick_nil]
    exact hfirst
  · obtain ⟨b, hb⟩ := Register.exists_pick htarget (Register.pick cells.1 r).2
    have hsecond := Register.gains_pick cells.2 (Register.pick cells.1 r).2
    rw [hb, Option.toList_some] at hsecond
    rw [hregister, claimEnds_snd hsource]
    exact ⟨a, Register.pick_mem ha, b, Register.pick_mem hb, ha, hb, hfirst.trans hsecond⟩
  · rw [hregister, gains_claimEnds_nil_iff hsource, forall_prop_of_true hsource]

/-- **What a connector leaves in the register**, drawn or not: nothing if one of its boxes is
missing, and else what its candidates say. Where it leaves nothing, later connectors are routed as
if it had not been there. -/
theorem route_leaves (s : SolvedGraph α) (settings : LayoutSettings α) (index : ℕ)
    (arrow : Arrow α) (r : Register) :
    (s.frame? arrow.source = none ∨ s.frame? arrow.target = none →
      s.route settings index arrow r = (none, r)) ∧
    (∀ source target, s.frame? arrow.source = some source → s.frame? arrow.target = some target →
      Leaves ((s.grid settings index arrow.target).candidates source target) r
        (s.route settings index arrow r)) ∧
    (r.Gains (s.route settings index arrow r).2 [] → ∀ later arrows,
      (s.routeFrom settings later arrows (s.route settings index arrow r).2).1 =
        (s.routeFrom settings later arrows r).1) := by
  refine ⟨fun hmissing => ?_, fun source target hs ht => ?_, fun hnone later arrows =>
    routeFrom_congr_claimed hnone s settings later arrows⟩
  · rw [route_eq, routeArrow_of_missing hmissing]
    rfl
  · obtain ⟨hregister, hdrawn⟩ := route_of_ends hs ht r
    exact leaves_of_claim hregister hdrawn

/-- Two boxes that touch, a third one below the first, and connectors from the first to each of the
others. -/
def touching : SolvedGraph Rat :=
  pinned (.of 0 0 60 60) [("a", .of 10 10 20 10), ("b", .of 30 10 10 10), ("c", .of 10 40 20 10)]
    [.between "a" "b", .between "a" "c"]

theorem touching_leaves : (touching.route ⟨0, 10, 0⟩ 0 (.between "a" "b") .empty).1 = none ∧
    Register.empty.Gains (touching.route ⟨0, 10, 0⟩ 0 (.between "a" "b") .empty).2
      [⟨1, 1⟩, ⟨3, 1⟩] := by
  have hleaves := (route_leaves touching ⟨0, 10, 0⟩ 0 (.between "a" "b") .empty).2.1
    (.of 10 10 20 10) (.of 30 10 10 10) (by decide +kernel) (by decide +kernel)
  obtain ⟨a, -, b, -, ha, hb, hgains⟩ := hleaves.both (by decide +kernel) (by decide +kernel)
  have hcells : (touching.grid ⟨0, 10, 0⟩ 0 "b").candidates (.of 10 10 20 10) (.of 30 10 10 10) =
      ([⟨1, 1⟩, ⟨2, 1⟩], [⟨3, 1⟩]) := by decide +kernel
  rw [show (Arrow.between "a" "b" : Arrow Rat).target = "b" from rfl, hcells] at ha hb
  obtain rfl : (⟨1, 1⟩ : Cell) = a := Option.some.inj ha
  obtain rfl : (⟨3, 1⟩ : Cell) = b := Option.some.inj hb
  exact ⟨by decide +kernel, hgains⟩

/-- The same boxes with the second connector only. -/
def untouched : SolvedGraph Rat :=
  { touching with graph := { touching.graph with arrows := [.between "a" "c"] } }

/-- A connector between boxes that touch is skipped, and yet the register has gained cells. The
later connector has to begin at another cell than it would without the one that is skipped. -/
theorem touching_takes :
    (touching.route ⟨0, 10, 0⟩ 0 (.between "a" "b") .empty).1 = none ∧
      ¬Register.empty.Gains (touching.route ⟨0, 10, 0⟩ 0 (.between "a" "b") .empty).2 [] ∧
      (touching.routeAll ⟨0, 10, 0⟩).map (·.ends) = [(⟨2, 1⟩, ⟨1, 4⟩)] ∧
      (untouched.routeAll ⟨0, 10, 0⟩).map (·.ends) = [(⟨1, 1⟩, ⟨1, 4⟩)] := by
  have hclaimed : (⟨1, 1⟩ : Cell) ∈
      (touching.route ⟨0, 10, 0⟩ 0 (.between "a" "b") .empty).2.claimed := by decide +kernel
  refine ⟨by decide +kernel, fun hnone => ?_, by decide +kernel, by decide +kernel⟩
  have hempty := (hnone _).1 hclaimed
  simp [Register.empty] at hempty

end SolvedGraph

end Schematic
