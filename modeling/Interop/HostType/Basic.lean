import Interop.Text.Quoted

/-! The types of the host platform: a closed set of primitive scalars, named value types
and reference types, arrays, and the type of no value. -/

namespace Interop

inductive PrimitiveKind where
  | boolean
  | char
  | sbyte
  | byte
  | int16
  | uint16
  | int32
  | uint32
  | int64
  | uint64
  | single
  | double
  | decimal
  | intPtr
  | uintPtr
deriving DecidableEq, Repr

namespace PrimitiveKind

def all : List PrimitiveKind :=
  [.boolean, .char, .sbyte, .byte, .int16, .uint16, .int32, .uint32, .int64, .uint64,
    .single, .double, .decimal, .intPtr, .uintPtr]

/-- The last part of the name. -/
def shortName : PrimitiveKind → String
  | .boolean => "Boolean"
  | .char => "Char"
  | .sbyte => "SByte"
  | .byte => "Byte"
  | .int16 => "Int16"
  | .uint16 => "UInt16"
  | .int32 => "Int32"
  | .uint32 => "UInt32"
  | .int64 => "Int64"
  | .uint64 => "UInt64"
  | .single => "Single"
  | .double => "Double"
  | .decimal => "Decimal"
  | .intPtr => "IntPtr"
  | .uintPtr => "UIntPtr"

def typeName (kind : PrimitiveKind) : String := "System." ++ kind.shortName

def ofTypeName? (name : String) : Option PrimitiveKind := all.find? (·.typeName == name)

end PrimitiveKind

inductive HostType where
  | primitive (kind : PrimitiveKind)
  | void
  /-- A value type that is not primitive. -/
  | value (name : String)
  | reference (name : String)
  | array (element : HostType)
deriving DecidableEq, Repr, Inhabited

/-- Marks the name of an array type. -/
def arraySuffix : String := "[]"

def objectTypeName : String := "System.Object"

def stringTypeName : String := "System.String"

def voidTypeName : String := "System.Void"

namespace HostType

/-- The root of the reference types. -/
def object : HostType := .reference objectTypeName

def string : HostType := .reference stringTypeName

/-- The qualified name; that of an array type is its element's with the suffix. -/
def name : HostType → String
  | .primitive kind => kind.typeName
  | .void => voidTypeName
  | .value name => name
  | .reference name => name
  | .array element => element.name ++ arraySuffix

def kind? : HostType → Option PrimitiveKind
  | .primitive kind => some kind
  | _ => none

/-- Values of these types are copied, and are boxed to travel as objects. -/
def isValueType : HostType → Bool
  | .primitive _ | .value _ => true
  | _ => false

def element? : HostType → Option HostType
  | .array element => some element
  | _ => none

/-- The type as a term: how it was built, with its name in quotes. -/
def term : HostType → String
  | .primitive kind => "Primitive(" ++ kind.shortName ++ ")"
  | .void => "Void"
  | .value name => "Struct(" ++ quotedText name ++ ")"
  | .reference name => "Class(" ++ quotedText name ++ ")"
  | .array element => "Array(" ++ element.term ++ ")"

instance : ToString HostType where
  toString := name

end HostType

end Interop
