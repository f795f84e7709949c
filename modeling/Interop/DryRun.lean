import Interop.Evaluation
import Interop.Decimal.Layout

/-! Dry runs. Nothing is done; the log has a line for every operation, and a value is a text
that says where it came from. The store of local variables is the only state that a later
operation can see. -/

namespace Interop

structure DryRun where
  log : Array String := #[]
  /-- The last values of the variables that have been stored to, in the order of their slots. -/
  locals : List (Nat × String) := []
  /-- The line of the log that is to fail. -/
  failsAt : Option Nat := none

inductive DryRunError where
  /-- The line that was to fail. -/
  | host
  | interop (error : InteropError)
deriving DecidableEq, Repr

namespace DryRun

abbrev RunText (α : Type) := RunM DryRun DryRunError α

/-- Logs a line, and fails if it is the one that is to fail. -/
def note (line : String) : RunText Unit := do
  let run ← get
  set { run with log := run.log.push line }
  if run.failsAt = some run.log.size then throw .host

/-- Logs a line for an operation that gives a value. -/
def noted (line value : String) : RunText String := do
  note line
  return value

def literalText : Literal → String
  | .nil => "nil"
  | .bool value => "bool:" ++ (if value then "true" else "false")
  | .int value => "int:" ++ toString value
  | .float value => "float:" ++ FloatLayout.listing.text value
  | .char value => "char:" ++ toString value.toNat
  | .string text => "str:" ++ text
  | .keyword text => "kw:" ++ text

def slotText (binding : LocalBinding) : String := binding.name ++ "#" ++ toString binding.index

def receiverText : Receiver String → String
  | .static type => "static " ++ type.name
  | .object value => value

def conversionText : UnboxPlan → String
  | .routine routine => routine.name
  | .unboxValue type => "unbox " ++ type.name
  | .downcast type => "cast " ++ type.name
  | .identity => "identity"

/-- A receiver with the member that is reached through it. -/
def memberText (receiver : Receiver String) (declaring : HostType) (name : String) : String :=
  receiverText receiver ++ " " ++ declaring.name ++ "::" ++ name

def perform : Request String → RunText String
  | .constant literal => noted ("const " ++ literalText literal) (literalText literal)
  | .loadLocal binding => do
    note ("load " ++ slotText binding)
    return ((← get).locals.lookup binding.index).getD ("L" ++ toString binding.index)
  | .loadGlobal name => noted ("global " ++ name) ("global:" ++ name)
  | .typeObject type => noted ("type " ++ type.name) ("type:" ++ type.name)
  | .convert value plan =>
    let conversion := conversionText plan
    noted ("convert " ++ conversion) (conversion ++ "[" ++ value ++ "]")
  | .getField receiver field =>
    let member := memberText receiver field.declaring field.name
    noted ("get-field " ++ member) ("field(" ++ member ++ ")")
  | .setField receiver field value =>
    noted ("set-field " ++ memberText receiver field.declaring field.name ++ " = " ++ value) value
  | .getProperty receiver property =>
    let member := memberText receiver property.declaring property.name
    noted ("get-prop " ++ member) ("prop(" ++ member ++ ")")
  | .setProperty receiver property value =>
    noted ("set-prop " ++ memberText receiver property.declaring property.name ++ " = " ++ value)
      value
  | .getMember target name =>
    noted ("get-member " ++ target ++ " " ++ name) ("member(" ++ target ++ " " ++ name ++ ")")
  | .setMember target name value =>
    noted ("set-member " ++ target ++ " " ++ name ++ " = " ++ value) value

def argumentText (arg : Argument String) : String :=
  match arg.byRef with
  | some binding => "&" ++ slotText binding ++ "=" ++ arg.value
  | none => arg.value

def invocationText (callee : String) (invocation : Invocation String) : String :=
  receiverText invocation.receiver ++ " " ++ callee
    ++ "<" ++ String.intercalate "," (invocation.typeArgs.map HostType.name)
    ++ ">(" ++ String.intercalate ", " (invocation.args.map argumentText) ++ ")"

/-- What an argument holds after the call. One that is passed by reference is changed. -/
def valueAfter (position : Nat) (arg : Argument String) : String :=
  if arg.byRef.isSome then "out" ++ toString position else arg.value

def invoke (invocation : Invocation String) : RunText (String × List String) := do
  let after := invocation.args.mapIdx valueAfter
  match invocation.callee with
  | .method method =>
    let call := invocationText (method.declaring.name ++ "::" ++ method.name) invocation
    note ("invoke " ++ call)
    return ("result(" ++ call ++ ")", after)
  | .named name =>
    let call := invocationText name invocation
    note ("reflect " ++ call)
    return ("dynamic(" ++ call ++ ")", after)

/-- Sets the value in a slot. -/
def setSlot (slot : Nat) (value : String) : List (Nat × String) → List (Nat × String)
  | [] => [(slot, value)]
  | (other, old) :: rest =>
    if slot < other then (slot, value) :: (other, old) :: rest
    else if slot = other then (slot, value) :: rest
    else (other, old) :: setSlot slot value rest

def store (binding : LocalBinding) (value : String) : RunText Unit := do
  note ("store " ++ slotText binding ++ " " ++ value)
  modify fun run => { run with locals := setSlot binding.index value run.locals }

def runtime : Runtime DryRun DryRunError String where
  perform := perform
  invoke := invoke
  store := store
  fault := .interop

/-- The outcome of a computation that starts from what was run before. -/
def resume (run : DryRun) (x : RunText String) : Except DryRunError String × DryRun :=
  (ExceptT.run x).run run

end DryRun

end Interop
