import Interop.Scope

/-! Expressions: what a form means once every name in it has been resolved. The members that a
form reaches are `Access` nodes; these are generic in what stands for subexpressions. -/

namespace Interop

inductive Literal where
  | nil
  | bool (value : Bool)
  | int (value : Int)
  | float (value : Float)
  | char (value : Char)
  | string (text : String)
  | keyword (text : String)
deriving DecidableEq, Inhabited

def Literal.type? : Literal → Option HostType
  | .nil | .keyword _ => none
  | .bool _ => some (.primitive .boolean)
  | .int _ => some (.primitive .int64)
  | .float _ => some (.primitive .double)
  | .char _ => some (.primitive .char)
  | .string _ => some .string

/-- What a member is reached through. -/
inductive Receiver (α : Type) where
  | static (type : HostType)
  | object (target : α)
deriving DecidableEq, Repr

/-- An argument of a call. One that is passed by reference names the local variable that takes
the value back. -/
structure Argument (α : Type) where
  value : α
  byRef : Option LocalBinding := none
deriving DecidableEq, Repr

structure Call (α : Type) where
  name : String
  /-- Absent when none were written, not even an empty list. -/
  typeArgs : Option (List HostType) := none
  args : List (Argument α) := []
  /-- The overload, when it could be chosen in advance. -/
  method : Option Method
  overflow : OverflowMode
deriving DecidableEq, Repr

namespace Call

variable {α : Type}

def typeArgList (call : Call α) : List HostType := call.typeArgs.getD []

def arity (call : Call α) : Nat := call.args.length

def isBound (call : Call α) : Bool := call.method.isSome

/-- The type of the result, when the overload is known and gives one. -/
def type? (call : Call α) : Option HostType :=
  (call.method.map Method.returns).filter (· ≠ .void)

/-- The types of the parameters, as far as they are known. -/
def paramTypes (call : Call α) : List HostType :=
  match call.method with
  | some method => method.params
  | none => []

end Call

inductive Access (α : Type) where
  | staticField (type : HostType) (field : Field) (site : Site)
  | staticProperty (type : HostType) (property : Property) (site : Site)
  | staticMethod (type : HostType) (call : Call α) (site : Site)
  /-- Without a field the member is looked up when it is assigned. -/
  | instanceField (target : α) (name : String) (field : Option Field) (site : Site)
  | instanceProperty (target : α) (property : Property) (site : Site)
  | instanceMethod (target : α) (call : Call α) (site : Site)
  /-- A member without arguments, looked up when it is reached. -/
  | dynamicMember (target : α) (name : String) (site : Site)
deriving DecidableEq, Repr

namespace Access

variable {α : Type}

def site : Access α → Site
  | .staticField _ _ site | .staticProperty _ _ site | .staticMethod _ _ site
  | .instanceField _ _ _ site | .instanceProperty _ _ site | .instanceMethod _ _ site
  | .dynamicMember _ _ site => site

def kindName : Access α → String
  | .staticField .. => "StaticField"
  | .staticProperty .. => "StaticProperty"
  | .staticMethod .. => "StaticMethod"
  | .instanceField .. => "InstanceField"
  | .instanceProperty .. => "InstanceProperty"
  | .instanceMethod .. => "InstanceMethod"
  | .dynamicMember .. => "InstanceDynamicZeroArityCall"

def memberName : Access α → String
  | .staticField _ field _ => field.name
  | .staticProperty _ property _ | .instanceProperty _ property _ => property.name
  | .staticMethod _ call _ | .instanceMethod _ call _ => call.name
  | .instanceField _ name _ _ | .dynamicMember _ name _ => name

def staticType? : Access α → Option HostType
  | .staticField type _ _ | .staticProperty type _ _ | .staticMethod type _ _ => some type
  | _ => none

def isStatic (node : Access α) : Bool := node.staticType?.isSome

def target? : Access α → Option α
  | .instanceField target _ _ _ | .instanceProperty target _ _ | .instanceMethod target _ _
  | .dynamicMember target _ _ => some target
  | _ => none

def call? : Access α → Option (Call α)
  | .staticMethod _ call _ | .instanceMethod _ call _ => some call
  | _ => none

/-- The type of the value that the access gives, when it is known. -/
def type? : Access α → Option HostType
  | .staticField _ field _ => some field.type
  | .instanceField _ _ field _ => field.map Field.type
  | .staticProperty _ property _ | .instanceProperty _ property _ => some property.type
  | .staticMethod _ call _ | .instanceMethod _ call _ => call.type?
  | .dynamicMember .. => none

/-- Whether the member has to be found by its name at run time. -/
def isReflective : Access α → Bool
  | .instanceField _ _ field _ => field.isNone
  | .dynamicMember .. => true
  | .staticMethod _ call _ | .instanceMethod _ call _ => !call.isBound
  | _ => false

/-- Fields can be assigned, and properties that can be written. -/
def isAssignable : Access α → Bool
  | .staticField .. | .instanceField .. => true
  | .staticProperty _ property _ | .instanceProperty _ property _ => property.writable
  | _ => false

/-- The error of assigning to a node that cannot be assigned. -/
def invalidTarget (node : Access α) (span : Span) : InteropError :=
  .invalidAssignTarget (node.kindName ++ " " ++ node.memberName) span

end Access

inductive Expr where
  | constant (literal : Literal)
  | localVar (binding : LocalBinding)
  /-- A variable of a namespace, by its qualified name. -/
  | global (name : String)
  | typeRef (type : HostType)
  | access (node : Access Expr)
  | assign (target : Access Expr) (value : Expr) (overflow : OverflowMode) (site : Site)

/-- The type of an expression's value, when it is known. -/
def Expr.type? : Expr → Option HostType
  | .constant literal => literal.type?
  | .localVar binding => binding.tag
  | .global _ | .typeRef _ => none
  | .access node | .assign node _ _ _ => node.type?

end Interop
