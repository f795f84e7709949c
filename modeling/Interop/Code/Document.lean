import Interop.Code.Instr
import Interop.Expr.Document

/-! Instructions and conversions as documents. -/

namespace Interop

def CastRoutine.document (routine : CastRoutine) : Document := .string routine.title

def UnboxPlan.document : UnboxPlan → Document
  | .routine cast => .tagged "Routine" cast.document
  | .unboxValue type => .tagged "UnboxValue" type.document
  | .downcast type => .tagged "Downcast" type.document
  | .identity => .string "Identity"

def BoxAction.document : BoxAction → Document
  | .box type => .tagged "Box" type.document
  | .nullMarker => .string "NullMarker"
  | .passThrough => .string "PassThrough"

namespace MemberRef

/-- The tag says what the instruction does to the member, and `kind` what the member is. -/
def document (tag kind : String) (ref : MemberRef) : Document :=
  .tagged tag (.record [("ty", .string ref.type), (kind, .string ref.member)])

end MemberRef

namespace Instr

def callFields (method : String) (arity : Nat) (typeArgs : List String) :
    List (String × Document) :=
  [("method", .string method), ("arity", .int arity),
    ("type_args", .list (typeArgs.map .string))]

def document : Instr → Document
  | .loadConst literal => .tagged "LoadConst" literal.document
  | .loadLocal index => .tagged "LoadLocal" (.int index)
  | .loadLocalAddress index => .tagged "LoadLocalAddress" (.int index)
  | .loadGlobal name => .tagged "LoadGlobal" (.string name)
  | .loadType type => .tagged "LoadType" (.string type)
  | .loadNull => .string "LoadNull"
  | .convert routine => .tagged "Convert" routine.document
  | .unboxValue type => .tagged "UnboxValue" (.string type)
  | .castClass type => .tagged "CastClass" (.string type)
  | .box type => .tagged "Box" (.string type)
  | .loadField true field => field.document "LoadStaticField" "field"
  | .loadField false field => field.document "LoadField" "field"
  | .storeField true field => field.document "StoreStaticField" "field"
  | .storeField false field => field.document "StoreField" "field"
  | .getProperty true property => property.document "GetStaticProperty" "property"
  | .getProperty false property => property.document "GetProperty" "property"
  | .setProperty true property => property.document "SetStaticProperty" "property"
  | .setProperty false property => property.document "SetProperty" "property"
  | .call isStatic method arity typeArgs =>
    .tagged (if isStatic then "CallStatic" else "CallVirtual")
      (.record (("ty", .string method.type) :: callFields method.member arity typeArgs))
  | .invokeReflective none method arity typeArgs =>
    .tagged "InvokeReflective" (.record (callFields method arity typeArgs))
  | .invokeReflective (some type) method arity typeArgs =>
    .tagged "InvokeStaticReflective"
      (.record (("ty", .string type) :: callFields method arity typeArgs))
  | .getMember name => .tagged "GetMemberReflective" (.record [("member", .string name)])
  | .setMember name => .tagged "SetMemberReflective" (.record [("member", .string name)])

end Instr

end Interop
