import Schematic.Proofs.Addressing
import Schematic.Proofs.Placing

/-!
# The most compact layout

A diagram without equations leaves open where its boxes lie, and the preferences settle it. How far
a layout misses them is the sum of the distances of its boxes from the origin and of the extents of
its canvas. No box comes nearer to the origin than the margin, and no canvas is smaller than the
largest box with a margin on either side. So only one layout reaches all these bounds at once.

* `Diagram.miss`: how far an assignment misses the preferences.
* `Diagram.Best`: the layouts that miss them least.
* `Diagram.Compact`: all boxes at the margin, on a canvas as small as it can be.
* `Diagram.miss_eq`: what a layout misses beyond the compact one.
* `Graph.exists_assignment`: the anchors of a diagram can be placed one by one.
* `Diagram.compact_best`: the compact layout is the best one, and there is no other.
-/

namespace Schematic

/-- How far a constraint is missed: a preference by the difference of its sides, a requirement not
at all. -/
def Constraint.miss (x : Variable → Rat) : Constraint Rat Variable → Rat
  | .required _ _ _ => 0
  | .preferred left right => |left.value x - right.value x|

namespace Placement

variable {x : Variable → Rat} {e f : LinearExpr Rat Variable}

@[simp] theorem miss_le : (le e f).miss x = 0 := rfl

@[simp] theorem miss_ge : (ge e f).miss x = 0 := rfl

@[simp] theorem miss_eq : (eq e f).miss x = 0 := rfl

@[simp] theorem miss_preferred :
    (Constraint.preferred e f).miss x = |e.value x - f.value x| := rfl

end Placement

/-! ### Extents -/

/-- The least extent of a canvas for boxes of some lengths, with a margin on either side: that of
the longest one. Without boxes there is no margin either. -/
def leastExtent (margin : Rat) (lengths : List Rat) : Rat :=
  lengths.max?.elim 0 (2 * margin + ·)

section Extents

variable {margin r : Rat} {lengths : List Rat}

/-- **The least extent** is a bound for every length and its margins. -/
theorem leastExtent_le_iff (hmargin : 0 ≤ margin) (hlengths : ∀ l ∈ lengths, 0 ≤ l) :
    leastExtent margin lengths ≤ r ↔ 0 ≤ r ∧ ∀ l ∈ lengths, 2 * margin + l ≤ r := by
  unfold leastExtent
  cases hmax : lengths.max? with
  | none =>
    obtain rfl := List.max?_eq_none_iff.1 hmax
    simp
  | some longest =>
    obtain ⟨hmem, hlongest⟩ := List.max?_eq_some_iff.1 hmax
    have hpos := hlengths longest hmem
    constructor
    · intro h
      have hbound : 2 * margin + longest ≤ r := h
      refine ⟨by linarith, fun l hl => ?_⟩
      linarith [hlongest l hl]
    · rintro ⟨-, h⟩
      exact h longest hmem

end Extents

/-! ### The variables of a diagram -/

namespace VariableTable

/-- Interning names adds no others. -/
theorem mem_names_internAll {names : List String} {table : VariableTable} {name : String}
    (h : name ∈ (internAll names table).names) : name ∈ table.names ∨ name ∈ names := by
  induction names generalizing table with
  | nil => exact .inl h
  | cons first names ih =>
    rcases ih h with h | h
    · change name ∈ (intern first table).2.names at h
      unfold intern at h
      split at h
      · exact .inl h
      · rcases List.mem_append.1 h with h | h
        · exact .inl h
        · exact .inr (List.mem_singleton.1 h ▸ List.mem_cons_self)
    · exact .inr (List.mem_cons_of_mem first h)

end VariableTable

namespace Graph

variable {α : Type} {g g' : Graph α}

/-- **No variable but anchors**: the name of every variable is that of an anchor of the canvas or
of a box. -/
def Spanned (g : Graph α) : Prop :=
  ∀ name ∈ g.table.names, ∃ owner anchor, name = Anchors.variableName owner anchor ∧
    (owner = canvasOwner ∨ (g.box? owner).isSome)

theorem mem_variableNames_iff {owner name : String} : name ∈ Anchors.variableNames owner ↔
    ∃ anchor, name = Anchors.variableName owner anchor := by
  constructor
  · intro h
    obtain ⟨anchor, -, rfl⟩ := List.mem_map.1 h
    exact ⟨anchor, rfl⟩
  · rintro ⟨anchor, rfl⟩
    exact List.mem_map_of_mem (by cases anchor <;> decide)

theorem spanned_empty : (Graph.empty : Graph α).Spanned := by
  have htable : (Graph.empty : Graph α).table =
      .internAll (Anchors.variableNames canvasOwner) .empty := Anchors.intern_snd canvasOwner .empty
  intro name hname
  rw [htable] at hname
  rcases VariableTable.mem_names_internAll hname with h | h
  · exact absurd h List.not_mem_nil
  · obtain ⟨anchor, rfl⟩ := mem_variableNames_iff.1 h
    exact ⟨canvasOwner, anchor, rfl, .inl rfl⟩

theorem Spanned.addBox {id label : String} {style : Option String} (h : g.Spanned)
    (hadd : g.addBox id label style = some g') : g'.Spanned := by
  have hbox := box?_addBox hadd
  have htable : g'.table = .internAll (Anchors.variableNames id) g.table := by
    obtain ⟨-, rfl⟩ := (addBox_eq_some_iff ..).1 hadd
    rw [Anchors.intern_snd]
  intro name hname
  rw [htable] at hname
  rcases VariableTable.mem_names_internAll hname with hname | hname
  · obtain ⟨owner, anchor, rfl, howner⟩ := h name hname
    refine ⟨owner, anchor, rfl, howner.imp_right fun howner => ?_⟩
    rw [hbox]
    split
    · rfl
    · exact howner
  · obtain ⟨anchor, rfl⟩ := mem_variableNames_iff.1 hname
    refine ⟨id, anchor, rfl, .inr ?_⟩
    rw [hbox, if_pos rfl]
    rfl

end Graph

theorem Document.build_spanned {α : Type} [Scalar α] {document : Document α} {d : Diagram α}
    (h : document.build = .ok d) : d.graph.Spanned :=
  build_induction Graph.spanned_empty (fun _ _ hg => hg)
    (fun _ _ _ _ _ hg _ hadd => hg.addBox hadd) (fun _ _ hg => hg) h

namespace Graph

variable {α : Type} {g : Graph α}

/-- The anchors of an owner: of a box, or else of the canvas. -/
def anchorsBy (g : Graph α) (owner : Option DiagramBox) : Anchors :=
  owner.elim g.anchors (·.anchors)

/-- All owners of anchors: the canvas, and the boxes in the order of their names. -/
def owners (g : Graph α) : List (Option DiagramBox) := none :: g.boxList.map some

theorem anchorVariables_eq (g : Graph α) : g.anchorVariables =
    (g.owners.flatMap fun owner => Anchor.all.map (owner, ·)).map fun place =>
      (g.anchorsBy place.1).get place.2 := by
  simp [anchorVariables, owners, anchorsBy, List.map_flatMap, List.flatMap_map, Function.comp_def]

theorem Naming.nodup_anchorVariables (h : g.Naming) (hkeyed : g.Keyed)
    (hcanvas : g.box? canvasOwner = none) : g.anchorVariables.Nodup := by
  have howners : (canvasOwner :: g.boxes.keys).Nodup := by
    refine List.nodup_cons.2 ⟨?_, Std.TreeMap.nodup_keys⟩
    rw [Std.TreeMap.mem_keys, ← Std.TreeMap.isSome_getElem?_iff_mem]
    simpa [box?] using hcanvas
  have hnames := (Anchors.nodup_variableNames howners).map (Option.some_injective _)
  rw [← h.map_anchorVariables hkeyed] at hnames
  exact .of_map _ hnames

/-- Every variable is an anchor of an owner. -/
theorem Naming.exists_anchor (h : g.Naming) (hspanned : g.Spanned) {v : Variable}
    (hv : v < g.table.size) : ∃ owner ∈ g.owners, ∃ anchor, v = (g.anchorsBy owner).get anchor := by
  have hname : g.table.names[v]? = some g.table.names[v] := List.getElem?_eq_getElem hv
  obtain ⟨owner, anchor, heq, howner⟩ := hspanned _ (List.getElem_mem hv)
  rw [heq] at hname
  -- two variables with one name are the same
  have hsame : ∀ w, g.table.names[w]? = some (Anchors.variableName owner anchor) → v = w := by
    intro w hw
    rw [← VariableTable.lookup_eq_some_iff h.nodup] at hw hname
    exact Option.some.inj (hname.symm.trans hw)
  rcases howner with rfl | howner
  · exact ⟨none, List.mem_cons_self, anchor, hsame _ (h.canvas anchor)⟩
  · obtain ⟨b, hb⟩ := Option.isSome_iff_exists.1 howner
    have hmem : b ∈ g.boxList := mem_boxList_iff.2 ⟨owner, hb⟩
    exact ⟨some b, List.mem_cons_of_mem _ (List.mem_map_of_mem hmem), anchor,
      hsame _ (h.boxes owner b hb anchor)⟩

/-- **The anchors of a diagram can be placed one by one**, whatever values they are to have. -/
theorem exists_assignment (h : g.anchorVariables.Nodup) (value : Option DiagramBox → Anchor → Rat) :
    ∃ x : Variable → Rat, ∀ owner ∈ g.owners, ∀ anchor,
      x ((g.anchorsBy owner).get anchor) = value owner anchor := by
  classical
  rw [anchorVariables_eq] at h
  set places := g.owners.flatMap fun owner => Anchor.all.map (owner, ·)
  set spot : Option DiagramBox × Anchor → Variable := fun place =>
    (g.anchorsBy place.1).get place.2
  refine ⟨fun v => if hv : ∃ place ∈ places, spot place = v then
    value hv.choose.1 hv.choose.2 else 0, fun owner howner anchor => ?_⟩
  have hanchor : anchor ∈ Anchor.all := by cases anchor <;> decide
  have hplace : (owner, anchor) ∈ places :=
    List.mem_flatMap.2 ⟨owner, howner, List.mem_map_of_mem hanchor⟩
  have hexists : ∃ place ∈ places, spot place = spot (owner, anchor) := ⟨_, hplace, rfl⟩
  obtain ⟨hmem, heq⟩ := hexists.choose_spec
  have hchosen := List.inj_on_of_nodup_map h hmem hplace heq
  change dite _ _ _ = _
  rw [dif_pos hexists, hchosen]

end Graph

/-! ### Layouts -/

namespace Diagram

variable {d : Diagram Rat} {settings : LayoutSettings Rat} {measure : DiagramBox → Size Rat}
  {x y : Variable → Rat}

/-- An assignment that satisfies all required constraints. -/
def Meets (d : Diagram Rat) (settings : LayoutSettings Rat) (measure : DiagramBox → Size Rat)
    (x : Variable → Rat) : Prop :=
  ∀ c, .ok c ∈ d.constraints settings measure → c.Holds x

/-- **How far an assignment misses the preferences**, all together. -/
def miss (d : Diagram Rat) (settings : LayoutSettings Rat) (measure : DiagramBox → Size Rat)
    (x : Variable → Rat) : Rat :=
  (((d.constraints settings measure).filterMap Except.toOption).map (Constraint.miss x)).sum

/-- **The best layouts** satisfy all required constraints, and miss the preferences least. -/
structure Best (d : Diagram Rat) (settings : LayoutSettings Rat) (measure : DiagramBox → Size Rat)
    (x : Variable → Rat) : Prop where
  meets : d.Meets settings measure x
  least : ∀ y, d.Meets settings measure y → d.miss settings measure x ≤ d.miss settings measure y

/-- The least width of the canvas. -/
def leastWidth (d : Diagram Rat) (settings : LayoutSettings Rat)
    (measure : DiagramBox → Size Rat) : Rat :=
  leastExtent settings.outerMargin (d.graph.boxList.map fun b => (measure b).width)

/-- The least height of the canvas. -/
def leastHeight (d : Diagram Rat) (settings : LayoutSettings Rat)
    (measure : DiagramBox → Size Rat) : Rat :=
  leastExtent settings.outerMargin (d.graph.boxList.map fun b => (measure b).height)

/-- **A compact layout**: every box at the margin, on the least canvas. -/
structure Compact (d : Diagram Rat) (settings : LayoutSettings Rat)
    (measure : DiagramBox → Size Rat) (x : Variable → Rat) : Prop where
  boxes : ∀ b ∈ d.graph.boxList,
    x b.anchors.left = settings.outerMargin ∧ x b.anchors.top = settings.outerMargin
  right : x d.graph.anchors.right = d.leastWidth settings measure
  bottom : x d.graph.anchors.bottom = d.leastHeight settings measure

/-- How far a box is from the margin. -/
def detour (settings : LayoutSettings Rat) (x : Variable → Rat) (b : DiagramBox) : Rat :=
  x b.anchors.left - settings.outerMargin + (x b.anchors.top - settings.outerMargin)

/-- How much larger than necessary the canvas is. -/
def surplus (d : Diagram Rat) (settings : LayoutSettings Rat) (measure : DiagramBox → Size Rat)
    (x : Variable → Rat) : Rat :=
  x d.graph.anchors.right - d.leastWidth settings measure +
    (x d.graph.anchors.bottom - d.leastHeight settings measure)

/-- What the compact layout misses. -/
def leastMiss (d : Diagram Rat) (settings : LayoutSettings Rat)
    (measure : DiagramBox → Size Rat) : Rat :=
  (d.graph.boxList.map fun _ => 2 * settings.outerMargin).sum +
    (d.leastWidth settings measure + d.leastHeight settings measure)

/-- What boxes miss is their distance from the edges of the canvas. -/
theorem sum_miss_boxConstraints (b canvas : Anchors) (size : Size Rat) (margin : Rat) :
    ((b.boxConstraints canvas size margin).map (Constraint.miss x)).sum =
      |x b.left - x canvas.left| + |x b.top - x canvas.top| := by
  simp [Anchors.boxConstraints]

/-- What the canvas misses is its extents. -/
theorem sum_miss_canvasConstraints (canvas : Anchors) :
    ((canvas.canvasConstraints (α := Rat)).map (Constraint.miss x)).sum =
      |x canvas.width| + |x canvas.height| := by
  simp [Anchors.canvasConstraints]

/-- **What an assignment misses** without equations, box by box and then for the canvas. -/
theorem miss_eq_sum (hequations : d.equations = []) : d.miss settings measure x =
    (d.graph.boxList.map fun b => |x b.anchors.left - x d.graph.anchors.left| +
      |x b.anchors.top - x d.graph.anchors.top|).sum +
      (|x d.graph.anchors.width| + |x d.graph.anchors.height|) := by
  have hframes : (d.constraints settings measure).filterMap Except.toOption =
      d.frameConstraints settings measure := by
    rw [constraints, hequations, List.map_nil, List.append_nil, List.filterMap_map]
    exact List.filterMap_some
  rw [miss, hframes, frameConstraints, List.map_append, List.sum_append,
    sum_miss_canvasConstraints, List.map_flatMap, List.flatMap, List.sum_flatten, List.map_map]
  simp only [Function.comp_def, sum_miss_boxConstraints]

/-! ### What a layout misses beyond the compact one -/

/-- **What a layout misses**: what the compact one does, the ways of its boxes from the margin, and
the surplus of its canvas. -/
theorem Placed.miss_eq (h : d.Placed settings measure x) (hmargin : 0 ≤ settings.outerMargin)
    (hequations : d.equations = []) : d.miss settings measure x =
      d.leastMiss settings measure +
        ((d.graph.boxList.map (detour settings x)).sum + d.surplus settings measure x) := by
  have hboxes : d.graph.boxList.map (fun b => |x b.anchors.left - x d.graph.anchors.left| +
      |x b.anchors.top - x d.graph.anchors.top|) =
      d.graph.boxList.map fun b => 2 * settings.outerMargin + detour settings x b := by
    refine List.map_congr_left fun b hb => ?_
    obtain ⟨id, hid⟩ := Graph.mem_boxList_iff.1 hb
    have hplaced := h.boxes id b hid
    rw [h.canvas.left, h.canvas.top, sub_zero, sub_zero,
      abs_of_nonneg (hmargin.trans hplaced.leftMargin),
      abs_of_nonneg (hmargin.trans hplaced.topMargin), detour]
    ring
  rw [miss_eq_sum hequations, hboxes, List.sum_map_add, h.canvas.width, h.canvas.height,
    abs_of_nonneg h.canvas.right, abs_of_nonneg h.canvas.bottom, leastMiss, surplus]
  ring

theorem Placed.detour_nonneg (h : d.Placed settings measure x) {b : DiagramBox}
    (hb : b ∈ d.graph.boxList) : 0 ≤ detour settings x b := by
  obtain ⟨id, hid⟩ := Graph.mem_boxList_iff.1 hb
  have hplaced := h.boxes id b hid
  exact add_nonneg (sub_nonneg.2 hplaced.leftMargin) (sub_nonneg.2 hplaced.topMargin)

section Placed

variable (hmargin : 0 ≤ settings.outerMargin)
  (hsize : ∀ b ∈ d.graph.boxList, 0 ≤ (measure b).width ∧ 0 ≤ (measure b).height)

include hmargin hsize

/-- No canvas is smaller than its boxes need. -/
theorem Placed.least_le (h : d.Placed settings measure x) :
    d.leastWidth settings measure ≤ x d.graph.anchors.right ∧
      d.leastHeight settings measure ≤ x d.graph.anchors.bottom := by
  constructor
  · refine (leastExtent_le_iff hmargin ?_).2 ⟨h.canvas.right, ?_⟩
    · exact List.forall_mem_map.2 fun b hb => (hsize b hb).1
    · refine List.forall_mem_map.2 fun b hb => ?_
      obtain ⟨id, hid⟩ := Graph.mem_boxList_iff.1 hb
      have hplaced := h.boxes id b hid
      linarith [hplaced.right, hplaced.leftMargin, hplaced.rightMargin]
  · refine (leastExtent_le_iff hmargin ?_).2 ⟨h.canvas.bottom, ?_⟩
    · exact List.forall_mem_map.2 fun b hb => (hsize b hb).2
    · refine List.forall_mem_map.2 fun b hb => ?_
      obtain ⟨id, hid⟩ := Graph.mem_boxList_iff.1 hb
      have hplaced := h.boxes id b hid
      linarith [hplaced.bottom, hplaced.topMargin, hplaced.bottomMargin]

theorem Placed.surplus_nonneg (h : d.Placed settings measure x) :
    0 ≤ d.surplus settings measure x := by
  obtain ⟨hwidth, hheight⟩ := h.least_le hmargin hsize
  exact add_nonneg (sub_nonneg.2 hwidth) (sub_nonneg.2 hheight)

/-- No layout misses less than the compact one. -/
theorem Placed.leastMiss_le (h : d.Placed settings measure x) (hequations : d.equations = []) :
    d.leastMiss settings measure ≤ d.miss settings measure x := by
  have hdetours : 0 ≤ (d.graph.boxList.map (detour settings x)).sum :=
    List.sum_nonneg (List.forall_mem_map.2 fun b hb => h.detour_nonneg hb)
  have hsurplus := h.surplus_nonneg hmargin hsize
  rw [h.miss_eq hmargin hequations]
  linarith

/-- **A layout that misses no more than the compact one is compact.** -/
theorem Placed.compact_iff (h : d.Placed settings measure x) (hequations : d.equations = []) :
    d.Compact settings measure x ↔ d.miss settings measure x = d.leastMiss settings measure := by
  have hdetours := List.forall_mem_map.2 fun b hb => h.detour_nonneg (b := b) hb
  have hsum := List.sum_nonneg hdetours
  have hsurplus := h.surplus_nonneg hmargin hsize
  obtain ⟨hwidth, hheight⟩ := h.least_le hmargin hsize
  rw [h.miss_eq hmargin hequations]
  constructor
  · intro hcompact
    have hnone : d.graph.boxList.map (detour settings x) = d.graph.boxList.map fun _ => 0 := by
      refine List.map_congr_left fun b hb => ?_
      obtain ⟨hleft, htop⟩ := hcompact.boxes b hb
      rw [detour, hleft, htop, sub_self, add_zero]
    rw [hnone, surplus, hcompact.right, hcompact.bottom]
    simp
  · intro hmiss
    -- no summand is negative, so all of them vanish
    have hzero : (d.graph.boxList.map (detour settings x)).sum = 0 := by linarith
    have hcanvas : d.surplus settings measure x = 0 := by linarith
    refine ⟨fun b hb => ?_, ?_, ?_⟩
    · obtain ⟨id, hid⟩ := Graph.mem_boxList_iff.1 hb
      have hplaced := h.boxes id b hid
      have hbox : detour settings x b = 0 :=
        List.all_zero_of_le_zero_le_of_sum_eq_zero hdetours hzero (List.mem_map_of_mem hb)
      rw [detour] at hbox
      exact ⟨by linarith [hplaced.leftMargin, hplaced.topMargin],
        by linarith [hplaced.leftMargin, hplaced.topMargin]⟩
    · rw [surplus] at hcanvas
      linarith
    · rw [surplus] at hcanvas
      linarith

end Placed

/-! ### The compact layout -/

/-- Where an anchor of something square to the axes lies, given its corner on the diagonal and its
size. -/
def cornered (corner : Rat) (size : Size Rat) : Anchor → Rat
  | .top | .left => corner
  | .centerY => corner + size.height / 2
  | .bottom => corner + size.height
  | .centerX => corner + size.width / 2
  | .right => corner + size.width
  | .height => size.height
  | .width => size.width

theorem canvasPlaced_of_cornered {canvas : Anchors} {size : Size Rat} (hwidth : 0 ≤ size.width)
    (hheight : 0 ≤ size.height) (h : ∀ anchor, x (canvas.get anchor) = cornered 0 size anchor) :
    canvas.CanvasPlaced x := by
  have hright : x canvas.right = size.width := (h .right).trans (zero_add _)
  have hbottom : x canvas.bottom = size.height := (h .bottom).trans (zero_add _)
  refine ⟨h .left, h .top, hright ▸ hwidth, hbottom ▸ hheight, (h .width).trans hright.symm,
    (h .height).trans hbottom.symm, ?_, ?_⟩
  · rw [hright]
    exact (h .centerX).trans (zero_add _)
  · rw [hbottom]
    exact (h .centerY).trans (zero_add _)

theorem boxPlaced_of_cornered {b canvas : Anchors} {size : Size Rat} {margin : Rat}
    (hright : 2 * margin + size.width ≤ x canvas.right)
    (hbottom : 2 * margin + size.height ≤ x canvas.bottom)
    (h : ∀ anchor, x (b.get anchor) = cornered margin size anchor) :
    b.BoxPlaced canvas size margin x := by
  have hleft : x b.left = margin := h .left
  have htop : x b.top = margin := h .top
  have hr : x b.right = margin + size.width := h .right
  have hb : x b.bottom = margin + size.height := h .bottom
  refine ⟨?_, ?_, h .width, h .height, ?_, ?_, hleft.ge, htop.ge, ?_, ?_⟩
  · rw [hr, hleft]
  · rw [hb, htop]
  · rw [hleft]
    exact h .centerX
  · rw [htop]
    exact h .centerY
  · linarith
  · linarith

/-- **The compact layout**: all boxes in one corner, at the margin of the least canvas. -/
def compactValue (d : Diagram Rat) (settings : LayoutSettings Rat)
    (measure : DiagramBox → Size Rat) : Option DiagramBox → Anchor → Rat
  | none => cornered 0 ⟨d.leastWidth settings measure, d.leastHeight settings measure⟩
  | some b => cornered settings.outerMargin (measure b)

section Layout

variable (hmargin : 0 ≤ settings.outerMargin)
  (hsize : ∀ b ∈ d.graph.boxList, 0 ≤ (measure b).width ∧ 0 ≤ (measure b).height)

/-- A compact layout gives every anchor its one value. -/
theorem Compact.value (hcompact : d.Compact settings measure x)
    (hplaced : d.Placed settings measure x) {owner : Option DiagramBox}
    (howner : owner ∈ d.graph.owners) (anchor : Anchor) :
    x ((d.graph.anchorsBy owner).get anchor) = d.compactValue settings measure owner anchor := by
  rcases List.mem_cons.1 howner with rfl | hmem
  · obtain ⟨hleft, htop, -, -, hwidth, hheight, hx, hy⟩ := hplaced.canvas
    rw [hcompact.right] at hwidth hx
    rw [hcompact.bottom] at hheight hy
    cases anchor <;>
      simp [Graph.anchorsBy, Anchors.get, compactValue, cornered, hcompact.right,
        hcompact.bottom, *]
  · obtain ⟨b, hb, rfl⟩ := List.mem_map.1 hmem
    obtain ⟨id, hid⟩ := Graph.mem_boxList_iff.1 hb
    obtain ⟨hleft, htop⟩ := hcompact.boxes b hb
    obtain ⟨hright, hbottom, hwidth, hheight, hx, hy, -⟩ := hplaced.boxes id b hid
    cases anchor <;> simp [Graph.anchorsBy, Anchors.get, compactValue, cornered, *]

include hmargin hsize

/-- **The compact layout is a layout**: all that is required holds. -/
theorem placed_of_value (hequations : d.equations = [])
    (h : ∀ owner ∈ d.graph.owners, ∀ anchor, x ((d.graph.anchorsBy owner).get anchor) =
      d.compactValue settings measure owner anchor) :
    d.Placed settings measure x ∧ d.Compact settings measure x := by
  have hcanvas := h none List.mem_cons_self
  have hright : x d.graph.anchors.right = d.leastWidth settings measure :=
    (hcanvas .right).trans (zero_add _)
  have hbottom : x d.graph.anchors.bottom = d.leastHeight settings measure :=
    (hcanvas .bottom).trans (zero_add _)
  have hboxes : ∀ b ∈ d.graph.boxList, ∀ anchor,
      x (b.anchors.get anchor) = cornered settings.outerMargin (measure b) anchor :=
    fun b hb => h (some b) (List.mem_cons_of_mem _ (List.mem_map_of_mem hb))
  -- the canvas is as large as it has to be
  obtain ⟨hwidth, hwidths⟩ := (leastExtent_le_iff hmargin
    (List.forall_mem_map.2 fun b hb => (hsize b hb).1)).1 hright.ge
  obtain ⟨hheight, hheights⟩ := (leastExtent_le_iff hmargin
    (List.forall_mem_map.2 fun b hb => (hsize b hb).2)).1 hbottom.ge
  refine ⟨⟨?_, ?_, by simp [hequations]⟩, ?_, hright, hbottom⟩
  · exact canvasPlaced_of_cornered (hright ▸ hwidth) (hbottom ▸ hheight) hcanvas
  · intro id b hid
    have hb : b ∈ d.graph.boxList := Graph.mem_boxList_iff.2 ⟨id, hid⟩
    exact boxPlaced_of_cornered (hwidths _ (List.mem_map_of_mem hb))
      (hheights _ (List.mem_map_of_mem hb)) (hboxes b hb)
  · exact fun b hb => ⟨hboxes b hb .left, hboxes b hb .top⟩

end Layout

/-- **Without equations the best layout is the compact one**, and there is no other. The constraints
of any such diagram can be satisfied; the only assignment to its variables that satisfies them and
misses the preferences least has all boxes at the margin, on a canvas as large as the largest box
and its margins. A box that bore the name of the canvas would share its anchors, but this is no name
that a source can hold (`Document.Lexical.canvasOwner_not_mem`). -/
theorem compact_best {document : Document Rat} (hbuild : document.build = .ok d)
    (hcanvas : d.graph.box? canvasOwner = none) (hequations : d.equations = [])
    (hmargin : 0 ≤ settings.outerMargin)
    (hsize : ∀ b ∈ d.graph.boxList, 0 ≤ (measure b).width ∧ 0 ≤ (measure b).height) :
    ∃ x, d.Best settings measure x ∧ d.Compact settings measure x ∧
      ∀ y, d.Best settings measure y → ∀ v < d.graph.table.size, y v = x v := by
  have hnaming := Document.build_naming hbuild
  have hkeyed := Document.build_keyed hbuild
  have hmeets : ∀ y, d.Meets settings measure y ↔ d.Placed settings measure y := fun y =>
    constraints_iff_placed hbuild hsize (by simp [hequations])
  obtain ⟨x, hx⟩ := Graph.exists_assignment (hnaming.nodup_anchorVariables hkeyed hcanvas)
    (d.compactValue settings measure)
  obtain ⟨hplaced, hcompact⟩ := placed_of_value hmargin hsize hequations hx
  have hmiss := (hplaced.compact_iff hmargin hsize hequations).1 hcompact
  have hbest : d.Best settings measure x := by
    refine ⟨(hmeets x).2 hplaced, fun y hy => ?_⟩
    rw [hmiss]
    exact ((hmeets y).1 hy).leastMiss_le hmargin hsize hequations
  refine ⟨x, hbest, hcompact, fun y hy v hv => ?_⟩
  -- another best layout misses as little, so it is compact too
  have hplaced' := (hmeets y).1 hy.meets
  have hmiss' : d.miss settings measure y = d.leastMiss settings measure :=
    le_antisymm (hmiss ▸ hy.least x hbest.meets) (hplaced'.leastMiss_le hmargin hsize hequations)
  have hcompact' := (hplaced'.compact_iff hmargin hsize hequations).2 hmiss'
  obtain ⟨owner, howner, anchor, rfl⟩ :=
    hnaming.exists_anchor (Document.build_spanned hbuild) hv
  rw [hcompact'.value hplaced' howner, hcompact.value hplaced howner]

/-- Two boxes that nothing keeps apart. -/
def loose : Document Rat :=
  ⟨[⟨⟨.box ⟨"a", ⟨4, 5⟩⟩ [], none⟩, ⟨0, 5⟩⟩, ⟨⟨.box ⟨"b", ⟨10, 11⟩⟩ [], none⟩, ⟨6, 11⟩⟩]⟩

/-- Labels of two sizes: one is wider, the other one higher. -/
def uneven (b : DiagramBox) : Size Rat := if b.id = "a" then ⟨30, 20⟩ else ⟨10, 40⟩

theorem loose_compact : ∃ d, loose.build = .ok d ∧ d.leastWidth .standard uneven = 130 ∧
    ∃ x, d.Best .standard uneven x ∧ d.Compact .standard uneven x ∧
      ∀ y, d.Best .standard uneven y → ∀ v < d.graph.table.size, y v = x v := by
  have hread : (loose.build.toOption.map fun d => d.equations.isEmpty &&
      (d.graph.box? canvasOwner).isNone && d.leastWidth .standard uneven == 130) = some true := by
    decide +kernel
  obtain ⟨d, hd, hall⟩ := Option.map_eq_some_iff.1 hread
  have hbuild := eq_ok_of_toOption hd
  simp only [Bool.and_eq_true, List.isEmpty_iff, Option.isNone_iff_eq_none, beq_iff_eq] at hall
  obtain ⟨⟨hequations, hcanvas⟩, hwidth⟩ := hall
  refine ⟨d, hbuild, hwidth, compact_best hbuild hcanvas hequations (by decide) ?_⟩
  intro b _
  unfold uneven
  split <;> decide

end Diagram

end Schematic
