import Interop.Analysis.Argument
import Interop.MemberName

/-! Member access, `(. target member ...)`. A target that denotes a type makes the access static;
any other target is an expression. A member alone is a field, a property or a method without
arguments, in this order; with arguments, or in parentheses, it is a call. -/

namespace Interop

/-- The head of a member access. -/
def accessMarker : String := "."

def targetReceiver (analyze : Analyzer) (context : Context) (target : Form) :
    Analysis (Receiver Expr) := do
  match ← formType? context false target with
  | some type => return .static type
  | none => return .object (← analyze { context with assigning := false } target)

/-! ## A member alone -/

inductive NullaryMember where
  | field (field : Field)
  | property (property : Property)
  | method (method : Method)

/-- The first member of the name; methods are left out in property style. -/
def findNullary? (context : Context) (isStatic : Bool) (type : HostType) (name : String)
    (propertyStyle : Bool) : Analysis (Option NullaryMember) := do
  if let some field ← context.findField? isStatic type name then
    return some (.field field)
  if let some property ← context.findProperty? isStatic type name then
    return some (.property property)
  if propertyStyle then return none
  return (← context.findNullaryMethod? isStatic type name).map .method

/-- A call without arguments of a method that is known. -/
def nullaryCall (context : Context) (name : String) (method : Method) : Call Expr :=
  { name, method := some method, overflow := context.overflow }

/-- A member that is left to run time: a field when it is assigned to, otherwise whatever has
the name. -/
def deferredMember (context : Context) (target : Expr) (name : String) (site : Site) :
    Analysis (Access Expr) := do
  context.warn (.member site name)
  if context.assigning then return .instanceField target name none site
  else return .dynamicMember target name site

/-- The access to a member alone. A static member has to be known; an instance member need not,
nor need the type of its target. -/
def nullaryAccess (context : Context) (receiver : Receiver Expr) (member : Symbol)
    (site : Site) : Analysis (Access Expr) := do
  let (propertyStyle, sourceName) := splitPropertyStyle member.name
  let name := hostMemberName sourceName
  match receiver with
  | .static type =>
    match ← findNullary? context true type name propertyStyle with
    | some (.field field) => return .staticField type field site
    | some (.property property) => return .staticProperty type property site
    | some (.method method) => return .staticMethod type (nullaryCall context name method) site
    | none => Logged.fail (.missingMember type.name name site.span)
  | .object target =>
    let found ← match target.type? with
      | some type => findNullary? context false type name propertyStyle
      | none => pure none
    match found with
    | some (.field field) => return .instanceField target name (some field) site
    | some (.property property) => return .instanceProperty target property site
    | some (.method method) => return .instanceMethod target (nullaryCall context name method) site
    | none => deferredMember context target name site

/-! ## Calls -/

/-- The method name and what follows it, for `member rest...` and for `(member rest...)`. -/
def callParts (member : Form) (rest : List Form) (span : Span) :
    Except InteropError (Symbol × List Form) := do
  let (head, tail) ← match member.list? with
    | none => .ok (member, rest)
    | some items =>
      if rest.isEmpty then
        match items with
        | head :: tail => .ok (head, tail)
        | [] => .error (.malformedForm .emptyMemberCall member.span)
      else .error (.malformedForm .afterListMember span)
  match head.symbol? with
  | some symbol => return (symbol, tail)
  | none => .error (.malformedForm (.methodName head.text) head.span)

/-- The clause of type arguments, when it comes first, and the arguments. -/
def splitTypeArgs : List Form → Option (List Form) × List Form
  | [] => (none, [])
  | clause :: args =>
    if clause.isHeadedBy typeArgsMarker then (clause.list?.map (·.drop 1), args)
    else (none, clause :: args)

/-- The overload for a number of arguments, if its type parameters are as many as the type
arguments. -/
def findOverload? (context : Context) (receiver : Receiver Expr) (name : String) (arity : Nat)
    (typeArgCount : Nat) : Analysis (Option Method) := do
  let found ← match receiver with
    | .static type => context.findMethod? true type name arity
    | .object target =>
      match target.type? with
      | some type => context.findMethod? false type name arity
      | none => pure none
  return found.filter (·.genericArity = typeArgCount)

def callAccess (analyze : Analyzer) (context : Context) (receiver : Receiver Expr)
    (member : Form) (rest : List Form) (site : Site) : Analysis (Access Expr) := do
  let (symbol, tail) ← Logged.ofExcept (callParts member rest site.span)
  let name := hostMemberName symbol.name
  let (clause, forms) := splitTypeArgs tail
  let types ← clause.mapM (typeArgs context)
  let args ← arguments analyze context forms
  let method ← findOverload? context receiver name args.length (types.getD []).length
  if method.isNone then context.warn (.call site name args.length)
  let call : Call Expr :=
    { name, typeArgs := types, args, method, overflow := context.overflow }
  match receiver with
  | .static type => return .staticMethod type call site
  | .object target => return .instanceMethod target call site

/-! ## The whole form -/

/-- The access that a form writes. What is wrong with the member is told only after the target
has been analyzed. -/
def analyzeAccess (analyze : Analyzer) (context : Context) (form : Form) :
    Analysis (Access Expr) :=
  match form.list? with
  | none => Logged.fail (.malformedForm .notAList form.span)
  | some (_ :: target :: member :: rest) => do
    let receiver ← targetReceiver analyze context target
    let site := context.site form.span
    match member.symbol?, rest with
    | some symbol, [] => nullaryAccess context receiver symbol site
    | _, _ => callAccess analyze context receiver member rest site
  | some _ => Logged.fail (.malformedForm .incompleteAccess form.span)

end Interop
