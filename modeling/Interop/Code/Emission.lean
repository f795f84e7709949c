import Interop.Code.Instr
import Interop.Logged

/-! Instructions for expressions. The code of an expression leaves one object on the stack. An
argument of a known method is converted to the type of its parameter and a result is boxed,
since members work on values. Code that was emitted before an error remains. -/

namespace Interop

abbrev Emission := Logged Instr InteropError Unit

namespace Emission

def emit (instr : Instr) : Emission := Logged.note instr

def unbox : UnboxPlan → Emission
  | .routine routine => emit (.convert routine)
  | .unboxValue type => emit (.unboxValue type.name)
  | .downcast type => emit (.castClass type.name)
  | .identity => pure ()

/-- Converts the object on top of the stack to a type. -/
def convertTo (type : HostType) (overflow : OverflowMode) : Emission := do
  unbox (← Logged.ofExcept (UnboxPlan.ofType type overflow))

/-- Turns a result of a type into an object. -/
def boxResult (type : HostType) : Emission :=
  match BoxAction.ofType type with
  | .box type => emit (.box type.name)
  | .nullMarker => emit .loadNull
  | .passThrough => pure ()

/-- Converts a target to the type that declares the member. An object that is known to be of
that type is left as it is. -/
def convertTarget (known : Option HostType) (declaring : HostType) : Emission :=
  if declaring.isValueType ∨ known ≠ some declaring then convertTo declaring .checked
  else pure ()

end Emission

def memberOf (type : HostType) (member : String) : MemberRef := { type := type.name, member }

open Emission

mutual

def Expr.emit : Expr → Emission
  | .constant literal => Emission.emit (.loadConst literal)
  | .localVar binding => Emission.emit (.loadLocal binding.index)
  | .global name => Emission.emit (.loadGlobal name)
  | .typeRef type => Emission.emit (.loadType type.name)
  | .access node => emitAccess node
  | .assign target value overflow _ => emitStore target value.emit overflow

/-- Reads a member, or calls it. -/
def emitAccess : Access Expr → Emission
  | .staticField type field _ => do
    Emission.emit (.loadField true (memberOf type field.name))
    boxResult field.type
  | .staticProperty type property _ => do
    Emission.emit (.getProperty true (memberOf type property.name))
    boxResult property.type
  | .staticMethod type call _ => do
    emitCall call
    let typeArgs := call.typeArgList.map HostType.name
    match call.method with
    | some method =>
      Emission.emit (.call true (memberOf type call.name) call.arity typeArgs)
      boxResult method.returns
    | none => Emission.emit (.invokeReflective (some type.name) call.name call.arity typeArgs)
  | .instanceField target _ (some field) _ => do
    target.emit
    convertTarget target.type? field.declaring
    Emission.emit (.loadField false (memberOf field.declaring field.name))
    boxResult field.type
  | .instanceField target name none _ => do
    target.emit
    Emission.emit (.getMember name)
  | .instanceProperty target property _ => do
    target.emit
    convertTarget target.type? property.declaring
    Emission.emit (.getProperty false (memberOf property.declaring property.name))
    boxResult property.type
  | .instanceMethod target call _ => do
    target.emit
    let typeArgs := call.typeArgList.map HostType.name
    match call.method with
    | some method =>
      convertTarget target.type? method.declaring
      emitCall call
      Emission.emit (.call false (memberOf method.declaring call.name) call.arity typeArgs)
      boxResult method.returns
    | none =>
      emitCall call
      Emission.emit (.invokeReflective none call.name call.arity typeArgs)
  | .dynamicMember target name _ => do
    target.emit
    Emission.emit (.getMember name)

/-- Stores through a node the object that `value` puts on the stack, and leaves what was stored
there as an object. -/
def emitStore (node : Access Expr) (value : Emission) (overflow : OverflowMode) : Emission :=
  if !node.isAssignable then Logged.fail (node.invalidTarget node.site.span)
  else match node with
    | .staticField type field _ => do
      value
      convertTo field.type overflow
      Emission.emit (.storeField true (memberOf type field.name))
      boxResult field.type
    | .staticProperty type property _ => do
      value
      convertTo property.type overflow
      Emission.emit (.setProperty true (memberOf type property.name))
      boxResult property.type
    | .instanceField target _ (some field) _ => do
      target.emit
      convertTarget target.type? field.declaring
      value
      convertTo field.type overflow
      Emission.emit (.storeField false (memberOf field.declaring field.name))
      boxResult field.type
    | .instanceField target name none _ => do
      target.emit
      value
      Emission.emit (.setMember name)
    | .instanceProperty target property _ => do
      target.emit
      convertTarget target.type? property.declaring
      value
      convertTo property.type overflow
      Emission.emit (.setProperty false (memberOf property.declaring property.name))
      boxResult property.type
    | .staticMethod .. | .instanceMethod .. | .dynamicMember .. =>
      Logged.fail (node.invalidTarget node.site.span)

/-- The arguments of a call. -/
def emitCall : Call Expr → Emission
  | { args, method, overflow, .. } => emitArgs ((method.map Method.params).getD []) overflow args

/-- Arguments from left to right, converted as far as the types of the parameters are known. -/
def emitArgs (params : List HostType) (overflow : OverflowMode) : List (Argument Expr) → Emission
  | [] => pure ()
  | arg :: args => do
    emitArgument params.head? overflow arg
    emitArgs params.tail overflow args

def emitArgument (param : Option HostType) (overflow : OverflowMode) :
    Argument Expr → Emission
  | { byRef := some binding, .. } => Emission.emit (.loadLocalAddress binding.index)
  | { value, byRef := none } => do
    value.emit
    match param with
    | some type => convertTo type overflow
    | none => pure ()

end

/-- Assigns the value of an expression to a member. -/
def Access.emitAssign (node : Access Expr) (value : Expr) (overflow : OverflowMode) : Emission :=
  emitStore node value.emit overflow

/-- The instructions of an expression. -/
def Expr.code (expr : Expr) : Except InteropError (List Instr) :=
  let emission := expr.emit
  emission.result.map fun _ => emission.log

end Interop
