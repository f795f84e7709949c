import Interop.Proofs.Code.Linked

/-! An abstract machine for linked code. It knows of every slot of its stack how the value there
is represented, and is stuck when an instruction finds too few slots or a wrong representation. -/

namespace Interop

/-- How a value on the stack is represented. -/
inductive Slot where
  /-- A reference, with the type that it is known to be of. A boxed value is one too. -/
  | object (known : Option HostType)
  /-- A value of a value type that is not boxed. -/
  | value (type : HostType)
  | address (index : Nat)
deriving DecidableEq, Repr

namespace Slot

def isObject : Slot → Bool
  | .object _ => true
  | _ => false

/-- Whether a slot is what a receiver, a parameter or a store of the type takes: a value if it is
a value type, and otherwise a reference that is known to be of the type. Every one is an object. -/
def fits (slot : Slot) (type : HostType) : Bool :=
  match slot with
  | .object known => !type.isValueType && (type = .object || known = some type)
  | .value held => type.isValueType && held = type
  | .address _ => false

/-- Whether a slot can be passed as an argument. The parameter may be unknown. -/
def passes (slot : Slot) (arg : Argument Unit) (param : Option HostType) : Bool :=
  match arg.byRef, param with
  | some binding, _ => slot = .address binding.index
  | none, some type => slot.fits type
  | none, none => slot.isObject

/-- What a member of a type gives. -/
def results (type : HostType) : List Slot :=
  if type = .void then []
  else if type.isValueType then [.value type]
  else [.object (some type)]

end Slot

/-- What a conversion makes of an object. -/
def Conversion.slot : Conversion → Slot
  | .routine cast => .value (.primitive cast.kind)
  | .unboxValue type => .value type
  | .castClass type => .object (some type)

namespace Machine

/-- Takes one slot off the stack. -/
def pop (accepts : Slot → Bool) : List Slot → Option (List Slot)
  | [] => none
  | slot :: stack => if accepts slot then some stack else none

/-- Takes the receiver off the stack. Static members have none. -/
def popReceiver (owner declaring : Option HostType) (stack : List Slot) : Option (List Slot) :=
  match owner, declaring with
  | some _, _ => some stack
  | none, some type => pop (·.fits type) stack
  | none, none => pop Slot.isObject stack

/-- Takes arguments off the stack, the last one first. -/
def popArgs (params : List HostType) : List (Argument Unit) → List Slot → Option (List Slot)
  | [], stack => some stack
  | arg :: args, stack => do
    let stack ← popArgs params.tail args stack
    pop (·.passes arg params.head?) stack

/-- One instruction. `tags` has the types of the local variables. -/
def step (tags : Nat → Option HostType) (linked : Linked) (stack : List Slot) :
    Option (List Slot) :=
  match linked with
  | .loadConst literal => some (.object literal.type? :: stack)
  | .loadLocal index => some (.object (tags index) :: stack)
  | .loadLocalAddress index => some (.address index :: stack)
  | .loadGlobal _ | .loadType _ | .loadNull => some (.object none :: stack)
  | .convert _ conversion => do
    let stack ← pop Slot.isObject stack
    return conversion.slot :: stack
  | .box type => do
    let stack ← pop (· = .value type) stack
    return .object (some type) :: stack
  | .getField owner field => do
    let stack ← popReceiver owner (some field.declaring) stack
    return Slot.results field.type ++ stack
  | .setField owner field => do
    let stack ← pop (·.fits field.type) stack
    let stack ← popReceiver owner (some field.declaring) stack
    return Slot.results field.type ++ stack
  | .getProperty owner property => do
    let stack ← popReceiver owner (some property.declaring) stack
    return Slot.results property.type ++ stack
  | .setProperty owner property => do
    let stack ← pop (·.fits property.type) stack
    let stack ← popReceiver owner (some property.declaring) stack
    return Slot.results property.type ++ stack
  | .call owner signature =>
    match signature.method with
    | some method => do
      guard (method.arity = signature.arity)
      let stack ← popArgs method.params signature.args stack
      let stack ← popReceiver owner (some method.declaring) stack
      return Slot.results method.returns ++ stack
    | none => do
      let stack ← popArgs [] signature.args stack
      let stack ← popReceiver owner none stack
      return .object none :: stack
  | .getMember _ => do
    let stack ← pop Slot.isObject stack
    return .object none :: stack
  | .setMember _ => do
    let stack ← pop Slot.isObject stack
    let stack ← pop Slot.isObject stack
    return .object none :: stack

/-- Runs code from the first instruction to the last. -/
def run (tags : Nat → Option HostType) (code : List Linked) (stack : List Slot) :
    Option (List Slot) :=
  code.foldlM (fun stack linked => step tags linked stack) stack

theorem run_append (tags : Nat → Option HostType) (first rest : List Linked)
    (stack : List Slot) :
    run tags (first ++ rest) stack = (run tags first stack).bind (run tags rest) :=
  List.foldlM_append

theorem run_singleton (tags : Nat → Option HostType) (linked : Linked) (stack : List Slot) :
    run tags [linked] stack = step tags linked stack := by
  simp [run]

@[simp] theorem pop_cons (accepts : Slot → Bool) (slot : Slot) (stack : List Slot) :
    pop accepts (slot :: stack) = if accepts slot then some stack else none := rfl

end Machine

end Interop
