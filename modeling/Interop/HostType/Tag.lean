import Interop.HostType.Basic

/-! Short tags for primitive types and for arrays of them, such as `int` and `ints`. -/

namespace Interop

def scalarTags : List (String × PrimitiveKind) :=
  [("bool", .boolean), ("boolean", .boolean), ("char", .char), ("sbyte", .sbyte),
    ("byte", .byte), ("short", .int16), ("ushort", .uint16), ("int", .int32),
    ("uint", .uint32), ("long", .int64), ("ulong", .uint64), ("float", .single),
    ("double", .double), ("decimal", .decimal)]

/-- Every tag with its type: the scalars, then their plurals for arrays, then `objects`. -/
def tagTable : List (String × HostType) :=
  scalarTags.map (fun tag => (tag.1, .primitive tag.2))
    ++ scalarTags.map (fun tag => (tag.1 ++ "s", .array (.primitive tag.2)))
    ++ [("objects", .array .object)]

def primitiveTag? (tag : String) : Option HostType := tagTable.lookup tag

end Interop
