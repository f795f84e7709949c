import Interop.HostType.Basic

/-! The members of host types, and the questions that analysis puts to a host platform. -/

namespace Interop

structure Field where
  declaring : HostType
  name : String
  type : HostType
  isStatic : Bool
deriving DecidableEq, Repr

structure Property where
  declaring : HostType
  name : String
  type : HostType
  isStatic : Bool
  writable : Bool
deriving DecidableEq, Repr

structure Method where
  declaring : HostType
  name : String
  params : List HostType
  returns : HostType
  isStatic : Bool
  /-- The number of type parameters. -/
  genericArity : Nat
deriving DecidableEq, Repr

namespace Method

def arity (method : Method) : Nat := method.params.length

def isGeneric (method : Method) : Bool := 0 < method.genericArity

end Method

/-- A host platform, known by its answers. A member is looked up among the static members of a
type or among its instance members; a host may rank overloads as it likes. -/
structure Host where
  type? : (name : String) → Option HostType
  field? : (isStatic : Bool) → HostType → (name : String) → Option Field
  property? : (isStatic : Bool) → HostType → (name : String) → Option Property
  nullaryMethod? : (isStatic : Bool) → HostType → (name : String) → Option Method
  method? : (isStatic : Bool) → HostType → (name : String) → (arity : Nat) → Option Method

end Interop
