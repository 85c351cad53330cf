import Schematic.Model.Error
import Schematic.Model.Graph

/-!
# Building the model

The model of a document is built in three passes: first the styles, then the boxes,
then the connectors. So a box may name a style, and a connector may name boxes, that
are declared further down. The first declaration that cannot be taken is the error.

* `BoxStyle.ofDeclaration`, `Graph.declareBox`, `Arrow.ofDeclaration`: one declaration.
* `Document.build`: all of them.
* `Graph.resolve`: the variable that a reference speaks of.
-/

namespace Schematic

variable {α : Type}

/-- A declaration of a box or of a box style: its name and its fields. -/
structure Named (α : Type) where
  name : Located String
  fields : List (Located (Field α))
deriving DecidableEq, Repr

/-- A declaration of a connector: its ends and its fields. -/
structure Connection (α : Type) where
  source : Located String
  target : Located String
  fields : List (Located (Field α))
deriving DecidableEq, Repr

namespace Document

/-- The declared box styles, in order. -/
def boxStyles (d : Document α) : List (Named α) :=
  d.declarations.filterMap fun declaration => match declaration.value.item with
    | .boxStyle name fields => some ⟨name, fields⟩
    | _ => none

/-- The declared boxes, in order. -/
def boxes (d : Document α) : List (Named α) :=
  d.declarations.filterMap fun declaration => match declaration.value.item with
    | .box name fields => some ⟨name, fields⟩
    | _ => none

/-- The declared connectors, in order. -/
def connections (d : Document α) : List (Connection α) :=
  d.declarations.filterMap fun declaration => match declaration.value.item with
    | .connect source target fields => some ⟨source, target, fields⟩
    | _ => none

/-- The declared constraints, in order and each with the span of its declaration. -/
def equations (d : Document α) : List (Located (Equation α)) :=
  d.declarations.filterMap fun declaration => match declaration.value.item with
    | .constrain equation => some ⟨equation, declaration.span⟩
    | _ => none

end Document

/-- The refusal of a field that a declaration does not take. -/
def LayoutError.refuse (declaration : DeclarationKind) (field : Located (Field α)) :
    LayoutError α :=
  .unsupportedField field.value.key? declaration field.span

namespace BoxStyle

/-- The style with a field of its declaration. -/
def addField (style : BoxStyle α) (field : Located (Field α)) :
    Except (LayoutError α) (BoxStyle α) :=
  match field.value with
  | .background color => .ok { style with background := some color }
  | .textColor color => .ok { style with text := some color }
  | .comment _ => .ok style
  | _ => .error (.refuse .boxStyle field)

/-- The style that a declaration declares. -/
def ofDeclaration (declaration : Named α) : Except (LayoutError α) (BoxStyle α) :=
  declaration.fields.foldlM addField (plain declaration.name.value)

/-- The name of the style that holds the colours a box sets itself. Names in a source
hold no `!`, so it is the name of no other style. -/
def ownId (box : String) : String := "__!__box_" ++ box

end BoxStyle

/-- What the fields of a box have said so far. -/
structure BoxFields (α : Type) where
  background : Option (Color α)
  text : Option (Color α)
  style : Option String
  label : Option String
deriving DecidableEq, Repr

namespace BoxFields

/-- Nothing said yet. -/
def empty : BoxFields α := ⟨none, none, none, none⟩

/-- The fields with another one, which goes before earlier ones of its name. Styles have
to be in the sheet. -/
def add (styles : StyleSheet α) (said : BoxFields α) (field : Located (Field α)) :
    Except (LayoutError α) (BoxFields α) :=
  match field.value with
  | .background color => .ok { said with background := some color }
  | .textColor color => .ok { said with text := some color }
  | .label text => .ok { said with label := some text }
  | .style name =>
    if styles.contains name then .ok { said with style := some name }
    else .error (.undefined name field.span)
  | .comment _ => .ok said
  | _ => .error (.refuse .box field)

/-- Whether a box sets a colour itself. -/
def setsColor (said : BoxFields α) : Bool := said.background.isSome || said.text.isSome

/-- The style of the colours that a box sets itself. It inherits from the style that the
box names. -/
def ownStyle (said : BoxFields α) (id : String) : BoxStyle α :=
  ⟨BoxStyle.ownId id, said.style.toList, said.background, said.text⟩

end BoxFields

namespace Graph

/-- The model with a declared box. A box that sets a colour gets a style of its own. -/
def declareBox (g : Graph α) (declaration : Named α) : Except (LayoutError α) (Graph α) := do
  let id := declaration.name.value
  if id = canvasHead then throw (.reservedName id declaration.name.span)
  let said ← declaration.fields.foldlM (BoxFields.add g.styles) .empty
  let (g, style) :=
    if said.setsColor then (g.addStyle (said.ownStyle id), some (BoxStyle.ownId id))
    else (g, said.style)
  match g.addBox id (said.label.getD id) style with
  | some g => return g
  | none => throw (.duplicate .box id declaration.name.span)

/-- The model with a declared style. -/
def declareStyle (g : Graph α) (declaration : Named α) : Except (LayoutError α) (Graph α) := do
  let style ← BoxStyle.ofDeclaration declaration
  if g.styles.contains style.id then
    throw (.duplicate .boxStyle style.id declaration.name.span)
  return g.addStyle style

end Graph

namespace Arrow

/-- The drawing of an end that a field names. -/
def readHead (name : String) (span : Span) : Except (LayoutError α) ArrowHead :=
  match ArrowHead.ofText? name with
  | some head => .ok head
  | none => .error (.undefined name span)

/-- The connector with a field of its declaration. -/
def addField (arrow : Arrow α) (field : Located (Field α)) :
    Except (LayoutError α) (Arrow α) :=
  match field.value with
  | .lineWidth width => .ok { arrow with lineWidth := width }
  | .sourceHead name => (readHead name field.span).map fun head => { arrow with sourceHead := head }
  | .targetHead name => (readHead name field.span).map fun head => { arrow with targetHead := head }
  | .comment _ => .ok arrow
  | _ => .error (.refuse .connect field)

/-- The connector that a declaration declares. Both ends have to be boxes. -/
def ofDeclaration [Scalar α] (g : Graph α) (declaration : Connection α) :
    Except (LayoutError α) (Arrow α) := do
  for name in [declaration.source, declaration.target] do
    if (g.box? name.value).isNone then throw (.undefined name.value name.span)
  declaration.fields.foldlM addField (between declaration.source.value declaration.target.value)

end Arrow

/-- The model with a declared connector. -/
def Graph.declareArrow [Scalar α] (g : Graph α) (declaration : Connection α) :
    Except (LayoutError α) (Graph α) := do
  return g.addArrow (← Arrow.ofDeclaration g declaration)

/-- **The diagram** that a document declares. -/
def Document.build [Scalar α] (d : Document α) : Except (LayoutError α) (Diagram α) := do
  let g ← d.boxStyles.foldlM Graph.declareStyle .empty
  let g ← d.boxes.foldlM Graph.declareBox g
  let g ← d.connections.foldlM Graph.declareArrow g
  return ⟨g, d.equations⟩

/-- **The variable** that a reference speaks of: the head is a box or the canvas, and
one anchor follows it. -/
def Graph.resolve (g : Graph α) (span : Span) (reference : Reference) :
    Except (LayoutError α) Variable :=
  match g.anchorsOf? reference.head with
  | none => .error (.undefined reference.head span)
  | some anchors =>
    match reference.tail with
    | [name] => match Anchor.ofText? name with
      | some anchor => .ok (anchors.get anchor)
      | none => .error (.undefined reference.text span)
    | _ => .error (.undefined reference.text span)

end Schematic
