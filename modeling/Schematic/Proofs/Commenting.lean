import Schematic.Proofs.Linearity
import Schematic.Proofs.Locating
import Schematic.Proofs.Standalone

/-!
# Other comments

Comments are kept, and nothing depends on what they say. Where the comments among the tokens of a
document are changed, the tokens make up the same document with its comments changed. The last
token may be changed in a way of its own: its comment is the only one that no line break follows.

* `Document.recomment`: a document with its comments changed.
* `Recommented`: tokens with their comments changed.
* `Grammar.Run.recommented`: the phrases of a listing one by one.
* `Grammar.IsDeclaration.recommented`: the tokens of a declaration.
* `Grammar.IsDocument.recommented`: the tokens of a document.
-/

namespace Schematic

open Parsing (Tokens)

variable {α : Type} {f g : String → String}

/-! ### Changed comments -/

/-- A token with its text changed if it is a comment. -/
def Token.recomment (f : String → String) : Token α → Token α
  | .comment text => .comment (f text)
  | t => t

theorem Token.recomment_of_ne {t : Token α} (h : ∀ text, t ≠ .comment text) :
    t.recomment f = t := by
  cases t <;> first | rfl | exact absurd rfl (h _)

/-- A field with its text changed if it is a comment. -/
def Field.recomment (f : String → String) : Field α → Field α
  | .comment text => .comment (f text)
  | field => field

/-- An item with the comments in its block changed, and the comment that ends it in a way of its
own. -/
def Item.recomment (f g : String → String) : Item α → Item α
  | .boxStyle name fields => .boxStyle name (fields.map fun l => ⟨l.value.recomment f, l.span⟩)
  | .box name fields => .box name (fields.map fun l => ⟨l.value.recomment f, l.span⟩)
  | .connect source target fields =>
    .connect source target (fields.map fun l => ⟨l.value.recomment f, l.span⟩)
  | .constrain e => .constrain { e with comment := e.comment.map g }
  | .comment text => .comment (g text)

/-- A declaration with the comments in its block changed, and the one at its end in a way of its
own. -/
def Declaration.recomment (f g : String → String) (d : Declaration α) : Declaration α :=
  ⟨d.item.recomment f g, d.trailing.map g⟩

/-- **A document with its comments changed.** Only a comment at the end of the source, which has as
many bytes, is changed in a way of its own. -/
def Document.recomment (f g : String → String) (size : ℕ) (d : Document α) : Document α :=
  ⟨d.declarations.map fun l =>
    ⟨l.value.recomment f (if l.span.stop < size then f else g), l.span⟩⟩

/-- Documents are the same up to places if their declarations are. -/
theorem Document.bare_eq {d d' : Document α}
    (h : d.declarations.map (·.value.bare) = d'.declarations.map (·.value.bare)) :
    d.bare = d'.bare := by
  have hmap := congrArg (List.map fun v => (⟨v, ⟨0, 0⟩⟩ : Located (Declaration α))) h
  rw [List.map_map, List.map_map] at hmap
  exact congrArg Document.mk hmap

/-- Tokens with their comments changed, the last one in a way of its own. -/
def recommented (f g : String → String) : List (Token α) → List (Token α)
  | [] => []
  | t :: ts => t.recomment (if ts.isEmpty then g else f) :: recommented f g ts

/-- **Tokens whose comments are changed**, wherever they stand. -/
def Recommented (f g : String → String) (ts us : Tokens α) : Prop :=
  us.map (·.value) = recommented f g (ts.map (·.value))

theorem recommented_append (ts us : List (Token α)) : recommented f g (ts ++ us) =
    recommented f (if us.isEmpty then g else f) ts ++ recommented f g us := by
  induction ts with
  | nil => rfl
  | cons t ts ih =>
    rw [List.cons_append, recommented, ih, recommented, List.cons_append]
    cases ts <;> cases us <;> rfl

/-- Tokens without comments stay as they are. -/
theorem recommented_eq_self {ts : List (Token α)} (h : ∀ t ∈ ts, ∀ f, t.recomment f = t) :
    recommented f g ts = ts := by
  induction ts with
  | nil => rfl
  | cons t ts ih =>
    obtain ⟨ht, hts⟩ := List.forall_mem_cons.1 h
    rw [recommented, ht, ih hts]

/-- A change of comments can be undone. -/
theorem recommented_undo {f' g' : String → String} (hf : ∀ text, f' (f text) = text)
    (hg : ∀ text, g' (g text) = text) (ts : List (Token α)) :
    recommented f' g' (recommented f g ts) = ts := by
  have htoken : ∀ {h h' : String → String} (t : Token α), (∀ text, h' (h text) = text) →
      (t.recomment h).recomment h' = t := by
    intro h h' t hundo
    cases t with
    | comment text => exact congrArg Token.comment (hundo text)
    | _ => rfl
  induction ts with
  | nil => rfl
  | cons t ts ih =>
    have hempty : (recommented f g ts).isEmpty = ts.isEmpty := by cases ts <;> rfl
    rw [recommented, recommented, ih, hempty]
    split
    · rw [htoken t hg]
    · rw [htoken t hf]

namespace Recommented

variable {t u : Located (Token α)} {ts us vs ws : Tokens α}

theorem nil_iff : Recommented f g [] us ↔ us = [] := List.map_eq_nil_iff

theorem append (h : Recommented f g (ts ++ us) ws) : ∃ ts' us', ws = ts' ++ us' ∧
    Recommented f (if us.isEmpty then g else f) ts ts' ∧ Recommented f g us us' := by
  unfold Recommented at h
  rw [List.map_append, recommented_append, List.isEmpty_map] at h
  exact List.map_eq_append_iff.1 h

theorem cons (h : Recommented f g (t :: ts) ws) : ∃ s ts',
    ws = ⟨t.value.recomment (if ts.isEmpty then g else f), s⟩ :: ts' ∧ Recommented f g ts ts' := by
  unfold Recommented at h
  rw [List.map_cons, recommented, List.isEmpty_map] at h
  obtain ⟨⟨t', s⟩, ts', rfl, rfl, hts⟩ := List.map_eq_cons_iff.1 h
  exact ⟨s, ts', rfl, hts⟩

theorem of_cons {t : Token α} (s s' : Span) (h : Recommented f g ts us) :
    Recommented f g (⟨t, s⟩ :: ts) (⟨t.recomment (if ts.isEmpty then g else f), s'⟩ :: us) := by
  unfold Recommented at h ⊢
  rw [List.map_cons, List.map_cons, recommented, h, List.isEmpty_map]

theorem undo {f' g' : String → String} (h : Recommented f g ts us)
    (hf : ∀ text, f' (f text) = text) (hg : ∀ text, g' (g text) = text) :
    Recommented f' g' us ts := by
  rw [Recommented, h, recommented_undo hf hg]

/-- Tokens without comments stay as they are, though they may move. -/
theorem values_eq (h : Recommented f g ts us) (hts : ∀ t ∈ ts, ∀ f, t.value.recomment f = t.value) :
    us.map (·.value) = ts.map (·.value) := by
  rw [h, recommented_eq_self]
  exact List.forall_mem_map.2 hts

end Recommented

/-! ### Equations -/

section Equations

variable [Scalar α] {ps : List (Part α)} {comment : Option String} {e : Equation α}

/-- **The comment of an equation** is the one that ends its parts, and any other one could stand
there. -/
theorem Equation.ofParts_recomment (hps : ∀ p ∈ ps, p.isComment = false)
    (he : ofParts (ps ++ (comment.map Part.comment).toList) = .ok e) : e.comment = comment ∧
      ∀ other : Option String, ofParts (ps ++ (other.map Part.comment).toList) =
        .ok { e with comment := other } := by
  have hthrough : ∀ other : Option String, Part.throughComment (ps ++
      (other.map Part.comment).toList) = ps ++ (other.map Part.comment).toList := by
    intro other
    rw [Part.throughComment_append hps]
    cases other <;> rfl
  obtain ⟨hparts, hleft, hright⟩ := ofParts_eq_ok_iff.1 he
  rw [hthrough] at hparts
  -- what stands before the comment are the sides
  have hsides : ps = e.sides := by
    have hbefore := congrArg Part.beforeComment hparts
    have hsides : Part.beforeComment e.parts = e.sides :=
      Part.beforeComment_append_comment isComment_of_mem_sides
    exact (Part.beforeComment_append_comment hps).symm.trans (hbefore.trans hsides)
  subst hsides
  refine ⟨?_, fun other => ofParts_eq_ok_iff.2 ⟨hthrough other, hleft, hright⟩⟩
  have hcomments := List.append_cancel_left hparts
  cases comment <;> cases hcomment : e.comment <;> simp [hcomment] at hcomments ⊢
  exact hcomments.symm

end Equations

namespace Grammar

/-! ### Listings -/

section Listings

variable {β γ : Type} {sep : Token α → Prop} {P : Tokens α → β → Prop} {F G : β → γ}
  {ts us all : Tokens α} {bs : List β} {ready : Bool}

/-- **The phrases of a listing, one by one.** If separators are no comments, and each phrase is a
changed phrase when its tokens are changed, then a listing is a changed listing. The last phrase is
the one that no tokens follow. -/
theorem Run.recommented (hsep : ∀ t, sep t → ∀ f, t.recomment f = t)
    (hP : ∀ vs rest b ws, vs ++ rest <:+ all → P vs b →
      Recommented f (if rest.isEmpty then g else f) vs ws → ∃ b', P ws b' ∧ F b' = G b)
    (h : Run sep P ready ts bs) (hall : ts <:+ all) (hts : Recommented f g ts us) :
    ∃ bs', Run sep P ready us bs' ∧ bs'.map F = bs.map G := by
  induction h generalizing us with
  | nil ready =>
    obtain rfl := Recommented.nil_iff.1 hts
    exact ⟨[], .nil ready, rfl⟩
  | skip ready ht _ ih =>
    obtain ⟨s, us, rfl, hus⟩ := hts.cons
    obtain ⟨bs', hrun, hbs⟩ := ih ((List.suffix_cons _ _).trans hall) hus
    rw [hsep _ ht]
    exact ⟨bs', .skip ready ht hrun, hbs⟩
  | item hb _ ih =>
    obtain ⟨vs, us, rfl, hvs, hus⟩ := hts.append
    obtain ⟨b', hb', hF⟩ := hP _ _ _ _ hall hb hvs
    obtain ⟨bs', hrun, hbs⟩ := ih ((List.suffix_append _ _).trans hall) hus
    exact ⟨b' :: bs', .item hb' hrun, by rw [List.map_cons, List.map_cons, hF, hbs]⟩

end Listings

/-! ### Declarations -/

variable {ts us vs : Tokens α}

theorem StandsFor.recomment {t : Token α} {p : Part α} (h : StandsFor t p) :
    (∀ f, t.recomment f = t) ∧ p.isComment = false := by
  cases h <;> exact ⟨fun _ => rfl, rfl⟩

theorem IsTail.recomment {tail : List String} (h : IsTail ts tail) :
    ∀ t ∈ ts, ∀ f, t.value.recomment f = t.value := by
  induction h with
  | nil => simp
  | cons name _ ih =>
    exact List.forall_mem_cons.2 ⟨fun _ => rfl, List.forall_mem_cons.2 ⟨fun _ => rfl, ih⟩⟩

theorem IsParts.recomment {ps : List (Part α)} (h : IsParts ts ps) :
    (∀ t ∈ ts, ∀ f, t.value.recomment f = t.value) ∧ ∀ p ∈ ps, p.isComment = false := by
  induction h with
  | nil => simp
  | cons hp _ ih =>
    obtain ⟨htokens, hparts⟩ := ih
    cases hp with
    | token h =>
      exact ⟨List.forall_mem_cons.2 ⟨h.recomment.1, htokens⟩,
        List.forall_mem_cons.2 ⟨h.recomment.2, hparts⟩⟩
    | reference h =>
      exact ⟨List.forall_mem_cons.2 ⟨fun _ => rfl, List.forall_mem_append.2 ⟨h.recomment, htokens⟩⟩,
        List.forall_mem_cons.2 ⟨rfl, hparts⟩⟩

theorem IsTrailing.recommented {trailing : Option String} (h : IsTrailing ts trailing)
    (hts : Recommented f g ts us) : IsTrailing us (trailing.map g) := by
  cases h with
  | none =>
    obtain rfl := Recommented.nil_iff.1 hts
    exact .none
  | some text s =>
    obtain ⟨s', us, rfl, hus⟩ := hts.cons
    obtain rfl := Recommented.nil_iff.1 hus
    exact .some (g text) s'

section Declarations

variable [Scalar α]

theorem Assigns.recomment {key : String} {t : Token α} {field : Field α} (h : Assigns key t field)
    (f : String → String) : t.recomment f = t ∧ field.recomment f = field := by
  cases h with
  | background h | textColor h => cases h <;> exact ⟨rfl, rfl⟩
  | lineWidth | label | sourceHead | targetHead | style => exact ⟨rfl, rfl⟩

theorem IsEntry.recommented {field : Located (Field α)} (h : IsEntry ts field)
    (hts : Recommented f f ts us) :
    ∃ field', IsEntry us field' ∧ field'.value = field.value.recomment f := by
  cases h with
  | comment text s =>
    obtain ⟨s', us, rfl, hus⟩ := hts.cons
    obtain rfl := Recommented.nil_iff.1 hus
    exact ⟨_, .comment (f text) s', rfl⟩
  | field h =>
    have hvalues := hts.values_eq (List.forall_mem_cons.2 ⟨fun _ => rfl,
      List.forall_mem_cons.2 ⟨fun _ => rfl,
        List.forall_mem_singleton.2 fun f => (h.recomment f).1⟩⟩)
    obtain ⟨s', us, rfl, hus⟩ := Located.exists_of_map_eq_cons hvalues
    obtain ⟨c', us, rfl, hrest⟩ := Located.exists_of_map_eq_cons hus
    obtain ⟨e', us, rfl, hnil⟩ := Located.exists_of_map_eq_cons hrest
    obtain rfl := List.map_eq_nil_iff.1 hnil
    exact ⟨_, .field h, (h.recomment f).2.symm⟩

theorem IsBlock.recommented {fields : List (Located (Field α))} (h : IsBlock ts fields)
    (hts : Recommented f g ts us) : ∃ fields', IsBlock us fields' ∧ fields'.map Located.bare =
      (fields.map fun l => Located.mk (l.value.recomment f) l.span).map Located.bare := by
  cases h with
  | @braces s e vs fields h =>
    obtain ⟨s', us, rfl, hrest⟩ := hts.cons
    obtain ⟨vs', ws, rfl, hvs, hclose⟩ := hrest.append
    obtain ⟨e', ws, rfl, hnil⟩ := hclose.cons
    obtain rfl := Recommented.nil_iff.1 hnil
    -- a brace follows every entry, so no comment of a block is the last token
    have hsep : ∀ t : Token α, IsBreak t → ∀ f, t.recomment f = t := by
      rintro t (rfl | rfl) f <;> rfl
    obtain ⟨fields', hrun, hfields⟩ := (listing_iff_run.1 h).recommented (f := f) (g := f)
      (F := (·.value)) (G := fun l => l.value.recomment f) hsep
      (fun vs rest b ws _ hb hws => hb.recommented (by simpa using hws)) List.suffix_rfl
      (by simpa using hvs)
    refine ⟨fields', .braces (listing_iff_run.2 hrun), Located.map_bare_eq ?_⟩
    rw [hfields, List.map_map]
    rfl

/-- What is declared with names and fields ends with no comment. -/
theorem IsItem.recommented {item : Item α} (h : IsItem ts item) (hts : Recommented f g ts us)
    (g' : String → String) :
    ∃ item', IsItem us item' ∧ item'.bare = (item.recomment f g').bare := by
  cases h with
  | boxStyle h =>
    obtain ⟨k, us, rfl, hrest⟩ := hts.cons
    obtain ⟨s, us, rfl, hblock⟩ := hrest.cons
    obtain ⟨fields', hfields', hbare⟩ := h.recommented hblock
    exact ⟨_, .boxStyle hfields', by simp only [Item.recomment, Item.bare, hbare]; rfl⟩
  | bareBox =>
    obtain ⟨k, us, rfl, hrest⟩ := hts.cons
    obtain ⟨s, us, rfl, hnil⟩ := hrest.cons
    obtain rfl := Recommented.nil_iff.1 hnil
    exact ⟨_, .bareBox, rfl⟩
  | box h =>
    obtain ⟨k, us, rfl, hrest⟩ := hts.cons
    obtain ⟨s, us, rfl, hblock⟩ := hrest.cons
    obtain ⟨fields', hfields', hbare⟩ := h.recommented hblock
    exact ⟨_, .box hfields', by simp only [Item.recomment, Item.bare, hbare]; rfl⟩
  | connect h =>
    obtain ⟨k, us, rfl, hnames⟩ := hts.cons
    obtain ⟨s, us, rfl, htarget⟩ := hnames.cons
    obtain ⟨s', us, rfl, hblock⟩ := htarget.cons
    obtain ⟨fields', hfields', hbare⟩ := h.recommented hblock
    exact ⟨_, .connect hfields', by simp only [Item.recomment, Item.bare, hbare]; rfl⟩

/-- **The tokens of a declaration** with their comments changed are the declaration with its
comments changed. -/
theorem IsDeclaration.recommented {d : Declaration α} (h : IsDeclaration ts d)
    (hts : Recommented f g ts us) :
    ∃ d', IsDeclaration us d' ∧ d'.bare = (d.recomment f g).bare := by
  cases h with
  | item h htrailing =>
    obtain ⟨us, vs, rfl, hus, hvs⟩ := hts.append
    obtain ⟨item', hitem', hbare⟩ := h.recommented hus g
    exact ⟨_, .item hitem' (htrailing.recommented hvs), by rw [Declaration.bare, hbare]; rfl⟩
  | constrain h hne hcomment he =>
    obtain ⟨k, us, rfl, hrest⟩ := hts.cons
    obtain ⟨us, vs, rfl, hus, hvs⟩ := hrest.append
    obtain ⟨htokens, hparts⟩ := h.recomment
    obtain ⟨hend, hother⟩ := Equation.ofParts_recomment hparts he
    refine ⟨_, .constrain (h.congr (hus.values_eq htokens)) hne (hcomment.recommented hvs)
      (hother _), ?_⟩
    rw [Declaration.recomment, Item.recomment, hend]
    rfl
  | comment text s =>
    obtain ⟨s', us, rfl, hnil⟩ := hts.cons
    obtain rfl := Recommented.nil_iff.1 hnil
    exact ⟨_, .comment (g text) s', rfl⟩

/-- Where the last token is no comment, it does not matter how it would be changed. -/
theorem IsDeclaration.recomment_eq {d : Declaration α} (h : IsDeclaration ts d)
    (hlast : ∀ t ∈ ts.getLast?, ∀ text, t.value ≠ .comment text) (g g' : String → String) :
    d.recomment f g = d.recomment f g' := by
  cases h with
  | item h htrailing =>
    cases htrailing with
    | none => cases h <;> rfl
    | some text s => exact absurd rfl (hlast ⟨.comment text, s⟩ (by simp) text)
  | constrain h hne hcomment he =>
    cases hcomment with
    | none =>
      have hend := (Equation.ofParts_recomment h.recomment.2 he).1
      simp only [Declaration.recomment, Item.recomment, hend, Option.map_none]
    | some text s =>
      refine absurd rfl (hlast ⟨.comment text, s⟩ ?_ text)
      rw [← List.cons_append, List.getLast?_append]
      rfl
  | comment text s => exact absurd rfl (hlast ⟨.comment text, s⟩ rfl text)

/-! ### Documents -/

theorem IsDeclaration.ne_nil {d : Declaration α} (h : IsDeclaration ts d) : ts ≠ [] := by
  cases h with
  | item h _ => cases h <;> simp
  | constrain | comment => simp

/-- **The tokens of a document** with their comments changed are the document with its comments
changed. The tokens stand one behind the other, and only a comment reaches to the end. -/
theorem IsDocument.recommented {d : Document α} {stop : ℕ} (h : IsDocument ts d)
    (hts : Recommented f g ts us) (horder : Span.InOrder ⟨0, stop⟩ (ts.map (·.span)))
    (hlast : ∀ t ∈ ts.getLast?, ∀ text, t.value = .comment text → t.span.stop = stop) :
    ∃ d', IsDocument us d' ∧ d'.bare = (d.recomment f g stop).bare := by
  have hsep : ∀ t : Token α, IsLineBreak t → ∀ f, t.recomment f = t := by
    rintro t rfl f
    rfl
  have hline : ∀ vs rest l ws, vs ++ rest <:+ ts → IsLine vs l →
      Recommented f (if rest.isEmpty then g else f) vs ws → ∃ l', IsLine ws l' ∧
        l'.value.bare = (l.value.recomment f (if l.span.stop < stop then f else g)).bare := by
    rintro vs rest l ws hsuffix ⟨hdeclaration, hcovers⟩ hws
    obtain ⟨d', hd', hbare⟩ := hdeclaration.recommented hws
    obtain ⟨t, ws, rfl⟩ := List.exists_cons_of_ne_nil hd'.ne_nil
    obtain ⟨s, hs⟩ := exists_covers t ws
    refine ⟨⟨d', s⟩, ⟨hd', hs⟩, hbare.trans (congrArg Declaration.bare ?_)⟩
    have hin := (hcovers.inOrder (horder.sublist (hsuffix.sublist.map _))).2.2.2
    cases rest with
    | cons t rest =>
      -- tokens follow, so the declaration ends before the end
      obtain ⟨hne, ⟨hbehind, hend⟩, -⟩ := Span.inOrder_cons.1 hin
      have hlt : l.span.stop < stop := hbehind.trans_lt (hne.trans_le hend)
      rw [if_pos hlt]
      rfl
    | nil =>
      rw [List.isEmpty_nil, if_pos rfl]
      split
      · rename_i hlt
        refine hdeclaration.recomment_eq (fun t ht text htext => ?_) g f
        obtain ⟨before, rfl⟩ := hsuffix
        have hstop : t.span.stop = stop := by
          refine hlast t ?_ text htext
          rw [List.append_nil, List.getLast?_append, ht]
          rfl
        have hends : t.span.stop = l.span.stop := by
          have hcover := hcovers.stop
          rw [EndsAt, ht] at hcover
          exact Option.some.inj hcover
        omega
      · rfl
  obtain ⟨ls, hrun, hls⟩ := (listing_iff_run.1 h).recommented hsep hline List.suffix_rfl hts
  refine ⟨⟨ls⟩, listing_iff_run.2 hrun, Document.bare_eq (hls.trans ?_)⟩
  rw [Document.recomment, List.map_map]
  rfl

end Declarations

end Grammar

end Schematic
