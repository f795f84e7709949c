import Interop.HostType.Basic

/-! Declarations of host types. Types are referred to by name, so a declaration stands for
itself and says nothing about the types that are known. -/

namespace Interop

inductive DeclaredKind where
  | reference
  | value
deriving DecidableEq, Repr

structure FieldDecl where
  name : String
  type : String
  isStatic : Bool := false
deriving DecidableEq, Repr

structure PropertyDecl where
  name : String
  type : String
  isStatic : Bool := false
  writable : Bool := false
deriving DecidableEq, Repr

/-- A method without a return type returns no value. -/
structure MethodDecl where
  name : String
  params : List String := []
  returns : Option String := none
  isStatic : Bool := false
  genericArity : Nat := 0
deriving DecidableEq, Repr

structure TypeDecl where
  name : String
  kind : DeclaredKind := .reference
  base : Option String := none
  fields : List FieldDecl := []
  properties : List PropertyDecl := []
  methods : List MethodDecl := []
deriving DecidableEq, Repr

/-- The type that a declaration defines. A primitive type and the type of no value stay what
they are, whatever kind is declared. -/
def TypeDecl.type (decl : TypeDecl) : HostType :=
  match PrimitiveKind.ofTypeName? decl.name with
  | some kind => .primitive kind
  | none =>
    if decl.name = voidTypeName then .void
    else match decl.kind with
      | .reference => .reference decl.name
      | .value => .value decl.name

end Interop
