import Interop.HostType.Basic
import Interop.Error

/-! Between objects and host values. Values travel as objects; an argument is converted to the
type of its parameter before a call, and a result is turned back into an object after it. -/

namespace Interop

/-- What numeric narrowing does with a value that does not fit. -/
inductive OverflowMode where
  /-- It raises an error. -/
  | checked
  /-- It wraps. -/
  | unchecked
deriving DecidableEq, Repr, Inhabited

namespace OverflowMode

def ofUnchecked (unchecked : Bool) : OverflowMode := if unchecked then .unchecked else .checked

def flipped : OverflowMode → OverflowMode
  | .checked => .unchecked
  | .unchecked => .checked

def text : OverflowMode → String
  | .checked => "Checked"
  | .unchecked => "Unchecked"

end OverflowMode

/-- Whether a value of another kind can be too large for this one. -/
def PrimitiveKind.canOverflow : PrimitiveKind → Bool
  | .boolean | .intPtr | .uintPtr => false
  | _ => true

/-- The routine that converts an object to a primitive value. The mode of a kind that cannot
overflow is `checked`. -/
structure CastRoutine where
  kind : PrimitiveKind
  overflow : OverflowMode
deriving DecidableEq, Repr

namespace CastRoutine

/-- The name of a kind within the name of a routine: in front, and after another word. -/
def kindWords : PrimitiveKind → String × String
  | .boolean => ("boolean", "Boolean")
  | .char => ("char", "Char")
  | .sbyte => ("sbyte", "SByte")
  | .byte => ("byte", "Byte")
  | .int16 => ("short", "Short")
  | .uint16 => ("ushort", "UShort")
  | .int32 => ("int", "Int")
  | .uint32 => ("uint", "UInt")
  | .int64 => ("long", "Long")
  | .uint64 => ("ulong", "ULong")
  | .single => ("float", "Float")
  | .double => ("double", "Double")
  | .decimal => ("decimal", "Decimal")
  | .intPtr => ("intPtr", "IntPtr")
  | .uintPtr => ("uintPtr", "UIntPtr")

def name (routine : CastRoutine) : String :=
  match routine.overflow with
  | .checked => (kindWords routine.kind).1 ++ "Cast"
  | .unchecked => "unchecked" ++ (kindWords routine.kind).2 ++ "Cast"

/-- The name with a capital letter, as documents have it. -/
def title (routine : CastRoutine) : String :=
  let word := (kindWords routine.kind).2 ++ "Cast"
  match routine.overflow with
  | .checked => word
  | .unchecked => "Unchecked" ++ word

/-- The routine for a kind under an overflow mode. -/
def select (kind : PrimitiveKind) (overflow : OverflowMode) : CastRoutine :=
  { kind, overflow := if kind.canOverflow then overflow else .checked }

def isUnchecked (routine : CastRoutine) : Bool := routine.overflow = .unchecked

end CastRoutine

/-- How an object becomes a value of a type. -/
inductive UnboxPlan where
  | routine (routine : CastRoutine)
  /-- A value type that is not primitive is unboxed in place. -/
  | unboxValue (type : HostType)
  | downcast (type : HostType)
  /-- Every object is one already. -/
  | identity
deriving DecidableEq, Repr

/-- There is no value of type `System.Void`, so none can be converted to it. -/
def UnboxPlan.ofType (type : HostType) (overflow : OverflowMode) :
    Except InteropError UnboxPlan :=
  match type with
  | .primitive kind => .ok (.routine (.select kind overflow))
  | .value _ => .ok (.unboxValue type)
  | .void => .error .voidParameter
  | .reference _ | .array _ => .ok (if type = .object then .identity else .downcast type)

/-- How a result becomes an object. -/
inductive BoxAction where
  | box (type : HostType)
  /-- There is no result, and a null takes its place. -/
  | nullMarker
  | passThrough
deriving DecidableEq, Repr

def BoxAction.ofType (type : HostType) : BoxAction :=
  if type = .void then .nullMarker
  else if type.isValueType then .box type
  else .passThrough

end Interop
