import Interop.Document
import Interop.Expr.Basic

/-! Expressions as documents, with everything that is known about them. -/

namespace Interop

def Span.document (span : Span) : Document :=
  .record [("start", .int span.start), ("end", .int span.stop),
    ("start_line", .int span.first.line), ("end_line", .int span.last.line),
    ("start_column", .int span.first.column), ("end_column", .int span.last.column)]

def Site.document (site : Site) : Document :=
  .record [("source", .string site.source), ("span", site.span.document)]

def HostType.document : HostType → Document
  | .primitive kind => .tagged "Primitive" (.string kind.shortName)
  | .void => .string "Void"
  | .value name => .tagged "Struct" (.string name)
  | .reference name => .tagged "Class" (.string name)
  | .array element => .tagged "Array" element.document

def Field.document (field : Field) : Document :=
  .record [("declaring_type", field.declaring.document), ("name", .string field.name),
    ("field_type", field.type.document), ("is_static", .bool field.isStatic)]

def Property.document (property : Property) : Document :=
  .record [("declaring_type", property.declaring.document), ("name", .string property.name),
    ("property_type", property.type.document), ("is_static", .bool property.isStatic),
    ("writable", .bool property.writable)]

def Method.document (method : Method) : Document :=
  .record [("declaring_type", method.declaring.document), ("name", .string method.name),
    ("params", .list (method.params.map HostType.document)),
    ("return_type", method.returns.document), ("is_static", .bool method.isStatic),
    ("generic_arity", .int method.genericArity)]

def LocalBinding.document (binding : LocalBinding) : Document :=
  .record [("name", .string binding.name), ("index", .int binding.index),
    ("tag", .optional HostType.document binding.tag)]

def Literal.document : Literal → Document
  | .nil => .string "Nil"
  | .bool value => .tagged "Bool" (.bool value)
  | .int value => .tagged "Int" (.int value)
  | .float value => .tagged "Float" (.float value)
  | .char value => .tagged "Char" (.string (String.singleton value))
  | .string text => .tagged "Str" (.string text)
  | .keyword text => .tagged "Keyword" (.string text)

def OverflowMode.document (mode : OverflowMode) : Document := .string mode.text

mutual

def Expr.document : Expr → Document
  | .constant literal => .tagged "Constant" literal.document
  | .localVar binding => .tagged "Local" binding.document
  | .global name => .tagged "Global" (.string name)
  | .typeRef type => .tagged "TypeRef" type.document
  | .access node => .tagged "Host" (accessDocument node)
  | .assign target value overflow site =>
    .tagged "Assign" (.record [("target", accessDocument target), ("value", value.document),
      ("overflow", overflow.document), ("site", site.document)])

def accessDocument : Access Expr → Document
  | .staticField type field site =>
    .tagged "StaticField" (.record [("ty", type.document), ("field", field.document),
      ("site", site.document)])
  | .staticProperty type property site =>
    .tagged "StaticProperty" (.record [("ty", type.document), ("property", property.document),
      ("site", site.document)])
  | .staticMethod type call site =>
    .tagged "StaticMethod" (.record [("ty", type.document), ("call", callDocument call),
      ("site", site.document)])
  | .instanceField target name field site =>
    .tagged "InstanceField" (.record [("target", target.document), ("name", .string name),
      ("field", .optional Field.document field), ("site", site.document)])
  | .instanceProperty target property site =>
    .tagged "InstanceProperty" (.record [("target", target.document),
      ("property", property.document), ("site", site.document)])
  | .instanceMethod target call site =>
    .tagged "InstanceMethod" (.record [("target", target.document),
      ("call", callDocument call), ("site", site.document)])
  | .dynamicMember target name site =>
    .tagged "InstanceDynamicZeroArityCall" (.record [("target", target.document),
      ("name", .string name), ("site", site.document)])

def callDocument : Call Expr → Document
  | { name, typeArgs, args, method, overflow } =>
    .record [("name", .string name),
      ("type_args", .optional (fun types => .list (types.map HostType.document)) typeArgs),
      ("params", .list (argumentDocuments args)),
      ("method", .optional Method.document method), ("overflow", overflow.document)]

def argumentDocuments : List (Argument Expr) → List Document
  | [] => []
  | argument :: arguments => argumentDocument argument :: argumentDocuments arguments

def argumentDocument : Argument Expr → Document
  | { value, byRef := none } => .tagged "Standard" value.document
  | { value, byRef := some binding } =>
    .tagged "ByRef" (.record [("local", binding.document), ("expr", value.document)])

end

end Interop
