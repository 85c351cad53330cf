import Schematic.Proofs.Attempts
import Schematic.Proofs.Routing

/-!
# Shared cells

Two ends of connectors share a cell only where the later one had no choice: all its candidates had
been picked before. The picks of a run are listed in the order in which they are made, those of
connectors that are not drawn included. What carries the argument is that the register holds the
cells that were picked so far, and no others.

* `Pick`, `SolvedGraph.picks`: the picks of a run, the source before the target, connector by
  connector.
* `Register.Run`: picks one after the other, and `Register.Run.mem_claimed_iff`, what is claimed
  after them.
* `Pick.FirstFree`: a pick that shares only if it has to.
* `SolvedGraph.picks_firstFree`: so are all picks of a run.
* `SolvedGraph.ends_shared`: when ends of drawn connectors have the same cell.
-/

namespace Schematic

/-- An end of a connector. -/
inductive ConnectorEnd where
  | source
  | target
deriving DecidableEq, Repr

/-- The place of an end among the ends of all connectors, given the number of its connector. -/
def ConnectorEnd.place (index : ℕ) : ConnectorEnd → ℕ
  | source => 2 * index
  | target => 2 * index + 1

/-- The cell that a connector claims for an end. -/
def Connector.cell {α : Type} (c : Connector α) : ConnectorEnd → Cell
  | .source => c.ends.1
  | .target => c.ends.2

/-- A pick for an end of a connector: the candidates, and the cell that was picked. -/
structure Pick where
  arrow : ℕ
  atEnd : ConnectorEnd
  candidates : List Cell
  cell : Option Cell
deriving DecidableEq, Repr

namespace Pick

/-- The place of a pick among all picks. -/
def place (p : Pick) : ℕ := p.atEnd.place p.arrow

/-- The cells that were picked. -/
def cells (picks : List Pick) : List Cell := picks.filterMap (·.cell)

/-- **A pick that shares only if it has to**: after picks of some cells it is the first candidate
that is not among these, and one of these only if all candidates are. -/
structure FirstFree (picked : List Cell) (p : Pick) : Prop where
  first : (∃ c ∈ p.candidates, c ∉ picked) → p.cell = p.candidates.find? (· ∉ picked)
  shared : ∀ c, p.cell = some c → c ∈ picked → ∀ c' ∈ p.candidates, c' ∈ picked
  refused : p.cell = none ↔ p.candidates = []

theorem firstFree_of_eq {picked : List Cell} {p : Pick}
    (h : p.cell = (p.candidates.find? (· ∉ picked)).or p.candidates.head?) :
    p.FirstFree picked := by
  refine ⟨fun hfree => ?_, fun c hc hmem => ?_, ?_⟩
  · have hfound : (p.candidates.find? (· ∉ picked)).isSome := by simpa using hfree
    obtain ⟨c, hc⟩ := Option.isSome_iff_exists.1 hfound
    rw [h, hc, Option.some_or]
  · cases hfind : p.candidates.find? (· ∉ picked) with
    | some c' =>
      rw [h, hfind, Option.some_or, Option.some.injEq] at hc
      exact absurd hmem (by simpa [hc] using List.find?_some hfind)
    | none => simpa using hfind
  · rw [h, Option.or_eq_none_iff, List.head?_eq_none_iff]
    refine and_iff_right_of_imp ?_
    rintro hnil
    rw [hnil, List.find?_nil]

end Pick

/-! ### Runs of the register -/

namespace Register

/-- **Picks one after the other**: each is made from the register that the one before it left. -/
inductive Run : Register → List Pick → Register → Prop
  | nil (r : Register) : Run r [] r
  | cons {r r' : Register} {p : Pick} {picks : List Pick} (h : p.cell = (pick p.candidates r).1)
    (rest : Run (pick p.candidates r).2 picks r') : Run r (p :: picks) r'

variable {r r' r'' : Register} {picks picks' : List Pick} {p : Pick} {c : Cell}

theorem Run.append (h : Run r picks r') (h' : Run r' picks' r'') : Run r (picks ++ picks') r'' := by
  induction h with
  | nil r => exact h'
  | cons hcell _ ih => exact .cons hcell (ih h')

/-- A pick of a run is made after those before it. -/
theorem Run.before_pick (h : Run r (picks ++ p :: picks') r'') :
    ∃ r', Run r picks r' ∧ p.cell = (pick p.candidates r').1 := by
  induction picks generalizing r with
  | nil =>
    obtain _ | ⟨hcell, -⟩ := h
    exact ⟨r, .nil r, hcell⟩
  | cons q picks ih =>
    obtain _ | ⟨hq, hrest⟩ := h
    obtain ⟨r', hrun, hcell⟩ := ih hrest
    exact ⟨r', .cons hq hrun, hcell⟩

/-- A pick claims the cell that it returns, and nothing else. -/
theorem mem_claimed_pick {cells : List Cell} :
    c ∈ (pick cells r).2.claimed ↔ (pick cells r).1 = some c ∨ c ∈ r.claimed := by
  unfold pick
  split
  · simp [eq_comm]
  · rename_i hnone
    refine (or_iff_right_of_imp fun hhead => ?_).symm
    -- the shared cell is a candidate, and all candidates are taken
    have hused := List.find?_eq_none.1 hnone c (List.mem_of_head? hhead)
    simpa [isUsed] using hused

/-- **What a run claims** are the cells that were picked. -/
theorem Run.mem_claimed_iff (h : Run r picks r') :
    c ∈ r'.claimed ↔ c ∈ Pick.cells picks ∨ c ∈ r.claimed := by
  induction h with
  | nil r => simp [Pick.cells]
  | @cons r r' p picks hcell _ ih =>
    rw [ih, mem_claimed_pick, ← hcell, Pick.cells, Pick.cells, ← or_assoc]
    refine or_congr_left ?_
    cases hp : p.cell <;> simp [hp, or_comm, eq_comm]

theorem pick_fst (cells : List Cell) (r : Register) :
    (pick cells r).1 = (cells.find? fun c => !r.isUsed c).or cells.head? := by
  unfold pick
  cases cells.find? fun c => !r.isUsed c <;> rfl

/-- **A pick in a run** shares only if it has to. -/
theorem Run.firstFree (h : Run .empty (picks ++ p :: picks') r) :
    p.FirstFree (Pick.cells picks) := by
  obtain ⟨r', hrun, hcell⟩ := h.before_pick
  have hfree : (fun c => !r'.isUsed c) = fun c => decide (c ∉ Pick.cells picks) := by
    funext c
    simp [isUsed, hrun.mem_claimed_iff, empty]
  rw [pick_fst, hfree] at hcell
  exact Pick.firstFree_of_eq hcell

end Register

/-! ### The picks of a diagram -/

namespace SolvedGraph

variable {α : Type} [Scalar α] {s : SolvedGraph α} {settings : LayoutSettings α} {index : ℕ}
  {arrow : Arrow α} {arrows : List (Arrow α)} {r : Register} {p : Pick} {c : Connector α}

/-- The picks for the ends of a connector. None is made for the target if there is no cell of the
source. -/
def endPicks (index : ℕ) (candidates : List Cell × List Cell) (r : Register) : List Pick :=
  let start := Register.pick candidates.1 r
  ⟨index, .source, candidates.1, start.1⟩ ::
    match start.1 with
    | none => []
    | some _ => [⟨index, .target, candidates.2, (Register.pick candidates.2 start.2).1⟩]

/-- The picks for a connector. None is made if a box is missing. -/
def arrowPicks (s : SolvedGraph α) (settings : LayoutSettings α) (index : ℕ) (arrow : Arrow α)
    (r : Register) : List Pick :=
  match s.frame? arrow.source, s.frame? arrow.target with
  | some source, some target =>
    endPicks index ((s.grid settings index arrow.target).candidates source target) r
  | _, _ => []

/-- The picks for connectors from a number on. -/
def picksFrom (s : SolvedGraph α) (settings : LayoutSettings α) :
    ℕ → List (Arrow α) → Register → List Pick
  | _, [], _ => []
  | index, arrow :: rest, r =>
    s.arrowPicks settings index arrow r ++
      picksFrom s settings (index + 1) rest (s.routeArrow settings index arrow r).2

/-- **The picks of a diagram**, in the order in which they are made. -/
def picks (s : SolvedGraph α) (settings : LayoutSettings α) : List Pick :=
  s.picksFrom settings 0 s.graph.arrows .empty

/-- Claiming the ends of a connector is a run of its picks. -/
theorem run_endPicks (index : ℕ) (candidates : List Cell × List Cell) (r : Register) :
    Register.Run r (endPicks index candidates r) (claimEnds candidates r).2 := by
  simp only [endPicks]
  cases hstart : (Register.pick candidates.1 r).1 with
  | none =>
    rw [claimEnds_of_none hstart]
    exact .cons hstart.symm (.nil _)
  | some start =>
    rw [claimEnds_of_some hstart]
    exact .cons hstart.symm (.cons rfl (.nil _))

/-- Routing a connector is a run of its picks. -/
theorem run_arrowPicks (s : SolvedGraph α) (settings : LayoutSettings α) (index : ℕ)
    (arrow : Arrow α) (r : Register) : Register.Run r (s.arrowPicks settings index arrow r)
      (s.routeArrow settings index arrow r).2 := by
  unfold arrowPicks
  cases hs : s.frame? arrow.source with
  | none =>
    rw [routeArrow_of_missing (.inl hs)]
    exact .nil r
  | some source =>
    cases ht : s.frame? arrow.target with
    | none =>
      rw [routeArrow_of_missing (.inr ht)]
      exact .nil r
    | some target =>
      rw [routeArrow_eq hs ht]
      exact run_endPicks _ _ _

/-- **Routing is a run of its picks.** -/
theorem run_picksFrom (s : SolvedGraph α) (settings : LayoutSettings α) (index : ℕ)
    (arrows : List (Arrow α)) (r : Register) : Register.Run r (s.picksFrom settings index arrows r)
      (s.routeFrom settings index arrows r).2 := by
  induction arrows generalizing index r with
  | nil => exact .nil r
  | cons arrow rest ih =>
    rw [routeFrom_cons]
    exact (s.run_arrowPicks settings index arrow r).append (ih _ _)

/-- **Every pick of a diagram shares only if it has to.** -/
theorem picks_firstFree {before after : List Pick} (h : s.picks settings = before ++ p :: after) :
    p.FirstFree (Pick.cells before) := by
  have hrun := s.run_picksFrom settings 0 s.graph.arrows .empty
  rw [← picks, h] at hrun
  exact hrun.firstFree

/-! ### The order of picks -/

/-- The picks for one connector, if any, are for its ends. -/
theorem arrowPicks_cases (s : SolvedGraph α) (settings : LayoutSettings α) (index : ℕ)
    (arrow : Arrow α) (r : Register) : s.arrowPicks settings index arrow r = [] ∨
      ∃ candidates, s.arrowPicks settings index arrow r = endPicks index candidates r := by
  unfold arrowPicks
  split
  · exact .inr ⟨_, rfl⟩
  · exact .inl rfl

theorem endPicks_ordered (index : ℕ) (candidates : List Cell × List Cell) (r : Register) :
    (endPicks index candidates r).Pairwise (·.place < ·.place) ∧
      ∀ p ∈ endPicks index candidates r, 2 * index ≤ p.place ∧ p.place < 2 * (index + 1) := by
  simp only [endPicks]
  cases (Register.pick candidates.1 r).1 with
  | none => simp [Pick.place, ConnectorEnd.place]
  | some start =>
    simp [Pick.place, ConnectorEnd.place]
    omega

theorem arrowPicks_ordered (s : SolvedGraph α) (settings : LayoutSettings α) (index : ℕ)
    (arrow : Arrow α) (r : Register) :
    (s.arrowPicks settings index arrow r).Pairwise (·.place < ·.place) ∧
      ∀ p ∈ s.arrowPicks settings index arrow r,
        2 * index ≤ p.place ∧ p.place < 2 * (index + 1) := by
  rcases s.arrowPicks_cases settings index arrow r with hnil | ⟨candidates, heq⟩
  · simp [hnil]
  · rw [heq]
    exact endPicks_ordered index candidates r

theorem picksFrom_ordered (s : SolvedGraph α) (settings : LayoutSettings α) (index : ℕ)
    (arrows : List (Arrow α)) (r : Register) :
    (s.picksFrom settings index arrows r).Pairwise (·.place < ·.place) ∧
      ∀ p ∈ s.picksFrom settings index arrows r, 2 * index ≤ p.place := by
  induction arrows generalizing index r with
  | nil => simp [picksFrom]
  | cons arrow rest ih =>
    obtain ⟨hpairwise, hplaces⟩ := s.arrowPicks_ordered settings index arrow r
    obtain ⟨hrest, hlater⟩ := ih (index + 1) (s.routeArrow settings index arrow r).2
    refine ⟨List.pairwise_append.2 ⟨hpairwise, hrest, fun p hp q hq => ?_⟩, fun p hp => ?_⟩
    · exact (hplaces p hp).2.trans_le (hlater q hq)
    · rcases List.mem_append.1 hp with hp | hp
      · exact (hplaces p hp).1
      · have hplace := hlater p hp
        omega

/-- **Picks are made in the order of their places**: for the source before the target, connector by
connector. -/
theorem picks_ordered (s : SolvedGraph α) (settings : LayoutSettings α) :
    (s.picks settings).Pairwise (·.place < ·.place) := (s.picksFrom_ordered ..).1

/-! ### The ends of drawn connectors -/

/-- The ends that an attempt claims were picked for it. -/
theorem exists_mem_arrowPicks {a : Attempt α} {ends : Cell × Cell}
    (h : (s.routeArrow settings index arrow r).1 = some a) (hends : a.ends = some ends) :
    ∃ candidates : List Cell × List Cell,
      ⟨index, .source, candidates.1, some ends.1⟩ ∈ s.arrowPicks settings index arrow r ∧
        ⟨index, .target, candidates.2, some ends.2⟩ ∈ s.arrowPicks settings index arrow r := by
  obtain ⟨source, target, hs, ht, rfl⟩ := exists_of_routeArrow h
  simp only [arrowPicks, hs, ht]
  generalize (s.grid settings index arrow.target).candidates source target = candidates at hends ⊢
  refine ⟨candidates, ?_⟩
  simp only at hends
  cases hstart : (Register.pick candidates.1 r).1 with
  | none => simp [claimEnds_of_none hstart] at hends
  | some start =>
    rw [claimEnds_of_some hstart] at hends
    obtain ⟨stop, hstop, rfl⟩ := Option.map_eq_some_iff.1 hends
    simp [endPicks, hstart, hstop]

/-- The ends that a later attempt claims were picked for it. -/
theorem exists_mem_picksFrom {i : ℕ} {a : Attempt α} {ends : Cell × Cell}
    (h : (s.routeFrom settings index arrows r).1[i]? = some (arrow, some a))
    (hends : a.ends = some ends) :
    ∃ candidates : List Cell × List Cell,
      ⟨index + i, .source, candidates.1, some ends.1⟩ ∈ s.picksFrom settings index arrows r ∧
        ⟨index + i, .target, candidates.2, some ends.2⟩ ∈ s.picksFrom settings index arrows r := by
  induction arrows generalizing index i r with
  | nil => simp [routeFrom, pure, StateT.pure] at h
  | cons arrow' rest ih =>
    rw [routeFrom_cons] at h
    cases i with
    | zero =>
      obtain ⟨rfl, ha⟩ := Prod.mk.inj (Option.some.inj h)
      obtain ⟨candidates, hsource, htarget⟩ := exists_mem_arrowPicks ha hends
      exact ⟨candidates, List.mem_append_left _ hsource, List.mem_append_left _ htarget⟩
    | succ i =>
      obtain ⟨candidates, hsource, htarget⟩ := ih h
      rw [show index + 1 + i = index + (i + 1) by omega] at hsource htarget
      exact ⟨candidates, List.mem_append_right _ hsource, List.mem_append_right _ htarget⟩

/-- **The ends of drawn connectors** were picked. -/
theorem exists_pick (h : c ∈ s.routeAll settings) (atEnd : ConnectorEnd) :
    ∃ p ∈ s.picks settings, p.place = atEnd.place c.arrow ∧ p.cell = some (c.cell atEnd) := by
  obtain ⟨arrow, a, hget, ha⟩ := mem_connectors_iff.1 h
  obtain ⟨ends, points, hends, -, -, hc⟩ := connector?_eq_some_iff.1 ha
  obtain rfl : ends = c.ends := by rw [← hc]
  obtain ⟨candidates, hsource, htarget⟩ := exists_mem_picksFrom hget hends
  rw [Nat.zero_add] at hsource htarget
  cases atEnd with
  | source => exact ⟨_, hsource, rfl, rfl⟩
  | target => exact ⟨_, htarget, rfl, rfl⟩

/-- **Cells are shared only where a box has run out.** The picks of routing are made in order, and
each shares a cell only if all its candidates were picked before. So where two ends of drawn
connectors have the same cell, this was so for the later one. -/
theorem ends_shared (s : SolvedGraph α) (settings : LayoutSettings α) :
    Register.Run .empty (s.picks settings) (s.routeFrom settings 0 s.graph.arrows .empty).2 ∧
      (s.picks settings).Pairwise (·.place < ·.place) ∧
      (∀ before p after, s.picks settings = before ++ p :: after →
        p.FirstFree (Pick.cells before)) ∧
      ∀ c₁ ∈ s.routeAll settings, ∀ c₂ ∈ s.routeAll settings, ∀ end₁ end₂ : ConnectorEnd,
        end₁.place c₁.arrow < end₂.place c₂.arrow → c₁.cell end₁ = c₂.cell end₂ →
        ∃ before p after, s.picks settings = before ++ p :: after ∧
          p.place = end₂.place c₂.arrow ∧ p.cell = some (c₂.cell end₂) ∧
          ∀ c ∈ p.candidates, c ∈ Pick.cells before := by
  have hordered := s.picks_ordered settings
  refine ⟨s.run_picksFrom .., hordered, fun before p after h => picks_firstFree h, ?_⟩
  intro c₁ h₁ c₂ h₂ end₁ end₂ hlt heq
  obtain ⟨p₁, hmem₁, hplace₁, hcell₁⟩ := exists_pick h₁ end₁
  obtain ⟨p₂, hmem₂, hplace₂, hcell₂⟩ := exists_pick h₂ end₂
  obtain ⟨before, after, hsplit⟩ := List.append_of_mem hmem₂
  rw [← hplace₁, ← hplace₂] at hlt
  -- the first pick comes before the second, as its place does
  have hbefore : p₁ ∈ before := by
    rw [hsplit, List.mem_append, List.mem_cons] at hmem₁
    rw [hsplit, List.pairwise_append, List.pairwise_cons] at hordered
    rcases hmem₁ with hmem | rfl | hmem
    · exact hmem
    · exact absurd hlt (lt_irrefl _)
    · exact absurd (hordered.2.1.1 p₁ hmem) hlt.asymm
  have hshared : c₂.cell end₂ ∈ Pick.cells before :=
    List.mem_filterMap.2 ⟨p₁, hbefore, by rw [hcell₁, heq]⟩
  exact ⟨before, p₂, after, hsplit, hplace₂, hcell₂,
    (picks_firstFree hsplit).shared _ hcell₂ hshared⟩

/-- A box of one cell with connectors from it, to it and from it again. -/
def crowded : SolvedGraph Rat :=
  pinned (.of 0 0 100 60) [("a", .of 20 20 10 10), ("b", .of 60 10 20 30)]
    [.between "a" "b", .between "b" "a", .between "a" "b"]

theorem crowded_shared : ∃ c₁ ∈ crowded.routeAll ⟨0, 10, 4⟩, ∃ c₂ ∈ crowded.routeAll ⟨0, 10, 4⟩,
    c₁.arrow ≠ c₂.arrow ∧ c₁.cell .source = c₂.cell .target ∧ ∃ before p after,
      crowded.picks ⟨0, 10, 4⟩ = before ++ p :: after ∧
        p.place = ConnectorEnd.target.place c₂.arrow ∧ p.cell = some (c₂.cell .target) ∧
        ∀ c ∈ p.candidates, c ∈ Pick.cells before := by
  have hdrawn : ∃ c₁ ∈ crowded.routeAll ⟨0, 10, 4⟩, ∃ c₂ ∈ crowded.routeAll ⟨0, 10, 4⟩,
      ConnectorEnd.source.place c₁.arrow < ConnectorEnd.target.place c₂.arrow ∧
        c₁.arrow ≠ c₂.arrow ∧ c₁.cell .source = c₂.cell .target := by decide +kernel
  obtain ⟨c₁, h₁, c₂, h₂, hlt, hne, heq⟩ := hdrawn
  exact ⟨c₁, h₁, c₂, h₂, hne, heq,
    (ends_shared crowded ⟨0, 10, 4⟩).2.2.2 c₁ h₁ c₂ h₂ .source .target hlt heq⟩

end SolvedGraph

end Schematic
