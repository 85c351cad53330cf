import Schematic.Model.Constraint
import Schematic.Source.Document

/-!
# Layout errors

Why a document has no layout: it refers to what is not there, declares what may not
be declared, or asks for what cannot be placed.

* `LayoutError.message`, `LayoutError.span?`: the error in words, and where it is.
-/

namespace Schematic

/-- The declarations that have names or fields. -/
inductive DeclarationKind where
  | boxStyle
  | box
  | connect
deriving DecidableEq, Repr

/-- The word that begins a declaration. -/
def DeclarationKind.text : DeclarationKind → String
  | boxStyle => "box-style"
  | box => "box"
  | connect => "connect"

/-- Why constraints have no solution. -/
inductive SolverError (α : Type) where
  /-- The constraint contradicts the ones before it. -/
  | unsatisfiable (constraint : Constraint α String)
  /-- No best layout was reached. -/
  | unbounded (constraint : Constraint α String)
deriving DecidableEq, Repr

/-- The error in words. -/
def SolverError.message {α : Type} [Scalar α] [Numeral α] : SolverError α → String
  | unsatisfiable constraint => "unsatisfiable constraint: " ++ constraint.text
  | unbounded constraint =>
    "internal solver error for " ++ constraint.text ++ ": The objective is unbounded."

/-- Why a document has no layout. -/
inductive LayoutError (α : Type) where
  | undefined (name : String) (span : Span)
  | unsupportedField (key : Option FieldKey) (declaration : DeclarationKind) (span : Span)
  | duplicate (declaration : DeclarationKind) (name : String) (span : Span)
  | reservedName (name : String) (span : Span)
  | equation (error : MalformedEquation α)
  | unsupportedRelation (relation : Relation) (span : Span)
  | solver (error : SolverError α)
deriving DecidableEq, Repr

namespace LayoutError

variable {α : Type}

/-- The error in words. -/
def message [Scalar α] [Numeral α] : LayoutError α → String
  | undefined name _ => "undefined reference '" ++ name ++ "'"
  | unsupportedField key declaration _ =>
    "field '" ++ (key.map (·.text)).getD "comment" ++ "' is not supported on " ++ declaration.text
  | duplicate declaration name _ =>
    declaration.text ++ " '" ++ name ++ "' is defined more than once"
  | reservedName name _ => "'" ++ name ++ "' is reserved and cannot name a box"
  | equation error => error.message
  | unsupportedRelation relation _ =>
    "relation '" ++ relation.text ++ "' is not supported, use <=, == or >="
  | solver error => "constraint solver error: " ++ error.message

/-- Where in the source the error is, if it is at one place. -/
def span? : LayoutError α → Option Span
  | undefined _ span | unsupportedField _ _ span | duplicate _ _ span | reservedName _ span
  | unsupportedRelation _ span => some span
  | equation _ | solver _ => none

end LayoutError

end Schematic
