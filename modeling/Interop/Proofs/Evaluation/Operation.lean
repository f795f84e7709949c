import Interop.Proofs.Code.Linked
import Interop.Evaluation

/-! Operations by the names in them. A runtime is asked for operations, and an instruction stands
for one; of both only the names are left here, so that the two can be compared. -/

namespace Interop

/-- What a runtime can be asked to do. A member is referred to like in an instruction. -/
inductive Operation where
  | constant (literal : Literal)
  | loadLocal (index : Nat)
  | storeLocal (index : Nat)
  | loadGlobal (name : String)
  | typeObject (type : String)
  | castRoutine (routine : CastRoutine)
  | unboxValue (type : String)
  | castClass (type : String)
  /-- A conversion that does nothing. No instruction stands for it. -/
  | keep
  | getField (isStatic : Bool) (field : MemberRef)
  | setField (isStatic : Bool) (field : MemberRef)
  | getProperty (isStatic : Bool) (property : MemberRef)
  | setProperty (isStatic : Bool) (property : MemberRef)
  | invoke (isStatic : Bool) (method : MemberRef) (arity : Nat) (typeArgs : List String)
  | invokeReflective (type : Option String) (method : String) (arity : Nat)
      (typeArgs : List String)
  | getMember (name : String)
  | setMember (name : String)
deriving DecidableEq

/-- The stores of local variables have no instructions of their own. -/
def Operation.isStore : Operation → Bool
  | .storeLocal _ => true
  | _ => false

/-! ## Operations of a runtime -/

namespace Receiver

variable {α : Type}

/-- The type that static members are reached through. -/
def owner? : Receiver α → Option HostType
  | .static type => some type
  | .object _ => none

end Receiver

def UnboxPlan.operation : UnboxPlan → Operation
  | .routine cast => .castRoutine cast
  | .unboxValue type => .unboxValue type.name
  | .downcast type => .castClass type.name
  | .identity => .keep

section

variable {ν : Type}

def Request.operation : Request ν → Operation
  | .constant literal => .constant literal
  | .loadLocal binding => .loadLocal binding.index
  | .loadGlobal name => .loadGlobal name
  | .typeObject type => .typeObject type.name
  | .convert _ plan => plan.operation
  | .getField receiver field =>
    .getField receiver.owner?.isSome (Linked.ref receiver.owner? field.declaring field.name)
  | .setField receiver field _ =>
    .setField receiver.owner?.isSome (Linked.ref receiver.owner? field.declaring field.name)
  | .getProperty receiver property =>
    .getProperty receiver.owner?.isSome
      (Linked.ref receiver.owner? property.declaring property.name)
  | .setProperty receiver property _ =>
    .setProperty receiver.owner?.isSome
      (Linked.ref receiver.owner? property.declaring property.name)
  | .getMember _ name => .getMember name
  | .setMember _ name _ => .setMember name

def Invocation.operation (invocation : Invocation ν) : Operation :=
  let owner? := invocation.receiver.owner?
  let typeArgs := invocation.typeArgs.map HostType.name
  match invocation.callee with
  | .method method =>
    .invoke owner?.isSome (Linked.ref owner? method.declaring method.name)
      invocation.args.length typeArgs
  | .named name =>
    .invokeReflective (owner?.map HostType.name) name invocation.args.length typeArgs

end

/-! ## Operations of code -/

/-- The operation that an instruction stands for. The address of a local variable is read to pass
its value, and neither boxing nor the null for no result asks a runtime for anything. -/
def Instr.operation? : Instr → Option Operation
  | .loadConst literal => some (.constant literal)
  | .loadLocal index | .loadLocalAddress index => some (.loadLocal index)
  | .loadGlobal name => some (.loadGlobal name)
  | .loadType type => some (.typeObject type)
  | .loadNull | .box _ => none
  | .convert cast => some (.castRoutine cast)
  | .unboxValue type => some (.unboxValue type)
  | .castClass type => some (.castClass type)
  | .loadField isStatic field => some (.getField isStatic field)
  | .storeField isStatic field => some (.setField isStatic field)
  | .getProperty isStatic property => some (.getProperty isStatic property)
  | .setProperty isStatic property => some (.setProperty isStatic property)
  | .call isStatic method arity typeArgs => some (.invoke isStatic method arity typeArgs)
  | .invokeReflective type method arity typeArgs =>
    some (.invokeReflective type method arity typeArgs)
  | .getMember name => some (.getMember name)
  | .setMember name => some (.setMember name)

namespace Linked

def isReceiverConversion : Linked → Bool
  | .convert ofReceiver _ => ofReceiver
  | _ => false

/-- The operations that linked code stands for, without the conversions of receivers. -/
def operations (linked : List Linked) : List Operation :=
  (linked.filter (!·.isReceiverConversion)).filterMap (·.instr.operation?)

theorem operations_append (first rest : List Linked) :
    operations (first ++ rest) = operations first ++ operations rest := by
  simp [operations]

end Linked

end Interop
