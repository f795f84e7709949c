import Interop.Expr.Basic
import Interop.Decimal.Layout

/-! Instructions of a stack machine. Every instruction takes its operands from the stack and
leaves its result there; types and members are referred to by name. -/

namespace Interop

/-- A literal as a term: how it was built, and its value. -/
def Literal.term : Literal → String
  | .nil => "Nil"
  | .bool value => "Bool(" ++ (if value then "true" else "false") ++ ")"
  | .int value => "Int(" ++ toString value ++ ")"
  | .float value => "Float(" ++ FloatLayout.listing.text value ++ ")"
  | .char value => "Char(" ++ quotedChar value ++ ")"
  | .string text => "Str(" ++ quotedText text ++ ")"
  | .keyword text => "Keyword(" ++ quotedText text ++ ")"

structure MemberRef where
  type : String
  member : String
deriving DecidableEq, Repr

instance : ToString MemberRef where
  toString ref := ref.type ++ "::" ++ ref.member

inductive Instr where
  | loadConst (literal : Literal)
  | loadLocal (index : Nat)
  /-- The address of a local variable, for an argument passed by reference. -/
  | loadLocalAddress (index : Nat)
  | loadGlobal (name : String)
  | loadType (type : String)
  | loadNull
  | convert (routine : CastRoutine)
  | unboxValue (type : String)
  | castClass (type : String)
  | box (type : String)
  | loadField (isStatic : Bool) (field : MemberRef)
  /-- A store leaves the value on the stack. -/
  | storeField (isStatic : Bool) (field : MemberRef)
  | getProperty (isStatic : Bool) (property : MemberRef)
  | setProperty (isStatic : Bool) (property : MemberRef)
  | call (isStatic : Bool) (method : MemberRef) (arity : Nat) (typeArgs : List String)
  /-- Looks a method up at run time: a static one of a type, or one of the object below the
  arguments. -/
  | invokeReflective (type : Option String) (method : String) (arity : Nat)
      (typeArgs : List String)
  | getMember (name : String)
  | setMember (name : String)
deriving DecidableEq

namespace Instr

def callWord (isStatic : Bool) : String := if isStatic then "call " else "callvirt "

/-- The line of a listing. -/
def text : Instr → String
  | .loadConst literal => "ldconst " ++ literal.term
  | .loadLocal index => "ldloc " ++ toString index
  | .loadLocalAddress index => "ldloca " ++ toString index
  | .loadGlobal name => "ldglobal " ++ name
  | .loadType type => "ldtype " ++ type
  | .loadNull => "ldnull"
  | .convert routine => "call " ++ routine.name
  | .unboxValue type => "unbox " ++ type
  | .castClass type => "castclass " ++ type
  | .box type => "box " ++ type
  | .loadField isStatic field => (if isStatic then "ldsfld " else "ldfld ") ++ toString field
  | .storeField isStatic field => (if isStatic then "stsfld " else "stfld ") ++ toString field
  | .getProperty isStatic property =>
    callWord isStatic ++ property.type ++ "::get_" ++ property.member
  | .setProperty isStatic property =>
    callWord isStatic ++ property.type ++ "::set_" ++ property.member
  | .call isStatic method arity _ => callWord isStatic ++ toString method ++ "/" ++ toString arity
  | .invokeReflective none method arity _ =>
    "invoke-reflective " ++ method ++ "/" ++ toString arity
  | .invokeReflective (some type) method arity _ =>
    "invoke-reflective " ++ type ++ "::" ++ method ++ "/" ++ toString arity
  | .getMember name => "get-member " ++ name
  | .setMember name => "set-member " ++ name

end Instr

end Interop
