import Interop.Expr.Document

/-! Summaries of expressions: what is known about an expression and the member it reaches,
without the expressions inside it. -/

namespace Interop

open Document (optional)

def typeNameOrNull (type : Option HostType) : Document :=
  optional (fun type => .string type.name) type

namespace Argument

def summary (arg : Argument Expr) : Document :=
  .record [("mode", .string (if arg.byRef.isSome then "ByRef" else "Standard")),
    ("local", optional (fun binding => .int binding.index) arg.byRef),
    ("type", typeNameOrNull arg.value.type?)]

end Argument

namespace Call

/-- The overload comes last, and only if there is one. -/
def summary (call : Call Expr) : Document :=
  .record ([("arity", .int call.arity), ("bound", .bool call.isBound),
    ("return", typeNameOrNull call.type?),
    ("type_args", .list (call.typeArgList.map fun type => .string type.name)),
    ("params", .list (call.args.map Argument.summary))]
    ++ call.method.toList.map fun method =>
      ("method", .list [.int method.arity, .bool method.isGeneric]))

end Call

namespace Access

/-- Only a call has a part about the call. -/
def summary (node : Access Expr) : Document :=
  .record ([("kind", .string node.kindName), ("member", .string node.memberName),
    ("static", .bool node.isStatic), ("static_type", typeNameOrNull node.staticType?),
    ("has_target", .bool node.target?.isSome), ("host_type", typeNameOrNull node.type?),
    ("reflective", .bool node.isReflective), ("assignable", .bool node.isAssignable),
    ("site", .string (toString node.site))]
    ++ node.call?.toList.map fun call => ("call", call.summary))

end Access

namespace Expr

/-- The member that an expression reads, calls or assigns. -/
def access? : Expr → Option (Access Expr)
  | .access node | .assign node _ _ _ => some node
  | _ => none

def summary (expr : Expr) : Document :=
  .record ([("host_type", typeNameOrNull expr.type?),
    ("has_host_type", .bool expr.type?.isSome)]
    ++ expr.access?.toList.map fun node => ("node", node.summary))

end Expr

end Interop
