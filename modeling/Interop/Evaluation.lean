import Interop.Expr.Basic

/-! Evaluation. There are no values of our own here: a runtime supplies them and does what has
to be done, and evaluation puts its operations into the order of the source. What a runtime
did before an error stays done. -/

namespace Interop

/-- An operation that gives a value. -/
inductive Request (ν : Type) where
  | constant (literal : Literal)
  | loadLocal (binding : LocalBinding)
  | loadGlobal (name : String)
  | typeObject (type : HostType)
  | convert (value : ν) (plan : UnboxPlan)
  | getField (receiver : Receiver ν) (field : Field)
  | setField (receiver : Receiver ν) (field : Field) (value : ν)
  | getProperty (receiver : Receiver ν) (property : Property)
  | setProperty (receiver : Receiver ν) (property : Property) (value : ν)
  /-- Finds a field, a property or a method without arguments by its name. -/
  | getMember (target : ν) (name : String)
  | setMember (target : ν) (name : String) (value : ν)

inductive Callee where
  | method (method : Method)
  /-- To be found by its name at run time. -/
  | named (name : String)
deriving DecidableEq, Repr

structure Invocation (ν : Type) where
  receiver : Receiver ν
  callee : Callee
  typeArgs : List HostType
  args : List (Argument ν)

/-- Computations on a state of type `σ`, which survives an error. -/
abbrev RunM (σ ε : Type) := ExceptT ε (StateM σ)

structure Runtime (σ ε ν : Type) where
  perform : Request ν → RunM σ ε ν
  /-- Gives the result and the values that the arguments have after the call, in their order. -/
  invoke : Invocation ν → RunM σ ε (ν × List ν)
  store : LocalBinding → ν → RunM σ ε Unit
  /-- The error for what is wrong with the expression itself. -/
  fault : InteropError → ε

namespace Runtime

variable {σ ε ν : Type}

/-- Converts a value to a type. The operation is left out where there is nothing to do. -/
def convertTo (runtime : Runtime σ ε ν) (value : ν) (type : HostType)
    (overflow : OverflowMode) : RunM σ ε ν :=
  match UnboxPlan.ofType type overflow with
  | .ok .identity => pure value
  | .ok plan => runtime.perform (.convert value plan)
  | .error e => throw (runtime.fault e)

/-- Stores the values of the arguments passed by reference in their local variables, from left
to right. -/
def writeBack (runtime : Runtime σ ε ν) : List (Argument ν × ν) → RunM σ ε Unit
  | [] => pure ()
  | (arg, value) :: rest => do
    if let some binding := arg.byRef then runtime.store binding value
    runtime.writeBack rest

/-- Invokes what a call names on arguments that have been evaluated. -/
def finishCall {α : Type} (runtime : Runtime σ ε ν) (receiver : Receiver ν) (call : Call α)
    (args : List (Argument ν)) : RunM σ ε ν := do
  let callee := match call.method with
    | some method => Callee.method method
    | none => .named call.name
  let (result, values) ←
    runtime.invoke { receiver, callee, typeArgs := call.typeArgList, args }
  runtime.writeBack (args.zip values)
  return result

end Runtime

section

variable {σ ε ν : Type} (runtime : Runtime σ ε ν)

mutual

def Expr.eval : Expr → RunM σ ε ν
  | .constant literal => runtime.perform (.constant literal)
  | .localVar binding => runtime.perform (.loadLocal binding)
  | .global name => runtime.perform (.loadGlobal name)
  | .typeRef type => runtime.perform (.typeObject type)
  | .access node => evalAccess node
  | .assign target value overflow _ => evalStore target value.eval overflow

/-- Reads a member, or calls it. A target comes before arguments. -/
def evalAccess : Access Expr → RunM σ ε ν
  | .staticField type field _ => runtime.perform (.getField (.static type) field)
  | .staticProperty type property _ => runtime.perform (.getProperty (.static type) property)
  | .staticMethod type call _ => do
    runtime.finishCall (.static type) call (← evalCall call)
  | .instanceField target _ (some field) _ => do
    runtime.perform (.getField (.object (← target.eval)) field)
  | .instanceField target name none _ => do
    runtime.perform (.getMember (← target.eval) name)
  | .instanceProperty target property _ => do
    runtime.perform (.getProperty (.object (← target.eval)) property)
  | .instanceMethod target call _ => do
    let object ← target.eval
    runtime.finishCall (.object object) call (← evalCall call)
  | .dynamicMember target name _ => do
    runtime.perform (.getMember (← target.eval) name)

/-- Stores through a node the value that `value` computes. A target comes before the value. -/
def evalStore (node : Access Expr) (value : RunM σ ε ν) (overflow : OverflowMode) : RunM σ ε ν :=
  if !node.isAssignable then throw (runtime.fault (node.invalidTarget node.site.span))
  else match node with
    | .staticField type field _ => do
      let value ← runtime.convertTo (← value) field.type overflow
      runtime.perform (.setField (.static type) field value)
    | .staticProperty type property _ => do
      let value ← runtime.convertTo (← value) property.type overflow
      runtime.perform (.setProperty (.static type) property value)
    | .instanceField target _ (some field) _ => do
      let object ← target.eval
      let value ← runtime.convertTo (← value) field.type overflow
      runtime.perform (.setField (.object object) field value)
    | .instanceField target name none _ => do
      let object ← target.eval
      runtime.perform (.setMember object name (← value))
    | .instanceProperty target property _ => do
      let object ← target.eval
      let value ← runtime.convertTo (← value) property.type overflow
      runtime.perform (.setProperty (.object object) property value)
    | .staticMethod .. | .instanceMethod .. | .dynamicMember .. =>
      throw (runtime.fault (node.invalidTarget node.site.span))

/-- The arguments of a call. -/
def evalCall : Call Expr → RunM σ ε (List (Argument ν))
  | { args, method, overflow, .. } => evalArgs ((method.map Method.params).getD []) overflow args

/-- Arguments from left to right, converted as far as the types of the parameters are known. -/
def evalArgs (params : List HostType) (overflow : OverflowMode) :
    List (Argument Expr) → RunM σ ε (List (Argument ν))
  | [] => pure []
  | arg :: args => do
    let first ← evalArgument params.head? overflow arg
    return first :: (← evalArgs params.tail overflow args)

/-- An argument passed by reference is the local variable as it is, without conversion. -/
def evalArgument (param : Option HostType) (overflow : OverflowMode) :
    Argument Expr → RunM σ ε (Argument ν)
  | { byRef := some binding, .. } => do
    return { value := ← runtime.perform (.loadLocal binding), byRef := some binding }
  | { value, byRef := none } => do
    let value ← value.eval
    match param with
    | some type => return { value := ← runtime.convertTo value type overflow }
    | none => return { value }

end

/-- Assigns the value of an expression to a member. -/
def Access.evalAssign (node : Access Expr) (value : Expr) (overflow : OverflowMode) :
    RunM σ ε ν :=
  evalStore runtime node (value.eval runtime) overflow

end

end Interop
