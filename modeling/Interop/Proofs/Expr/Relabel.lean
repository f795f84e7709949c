import Interop.Expr.Basic
import Interop.Proofs.Form.Spans

/-! Labels of expressions. Analysis puts the span of each form into a site, and the overflow mode
of its context into each call and each assignment. Other labels make another expression with the
same names, members and types. -/

namespace Interop

/-- Replaces spans and overflow modes. -/
structure Relabel where
  span : Span → Span := id
  overflow : OverflowMode → OverflowMode := id

def Site.relabel (r : Relabel) (site : Site) : Site := { site with span := r.span site.span }

def InteropError.mapSpan (f : Span → Span) : InteropError → InteropError
  | .malformedForm fault span => .malformedForm fault (f span)
  | .missingMember type member span => .missingMember type member (f span)
  | .invalidByRef operand span => .invalidByRef operand (f span)
  | .invalidTypeArg arg span => .invalidTypeArg arg (f span)
  | .unresolvedType name span => .unresolvedType name (f span)
  | .unresolvedSymbol name span => .unresolvedSymbol name (f span)
  | .unsupportedForm form span => .unsupportedForm form (f span)
  | .invalidAssignTarget target span => .invalidAssignTarget target (f span)
  | .voidParameter => .voidParameter

@[simp] theorem InteropError.mapSpan_id (e : InteropError) : e.mapSpan id = e := by
  cases e <;> rfl

mutual

def Expr.relabel (r : Relabel) : Expr → Expr
  | .constant literal => .constant literal
  | .localVar binding => .localVar binding
  | .global name => .global name
  | .typeRef type => .typeRef type
  | .access node => .access (relabelAccess r node)
  | .assign target value overflow site =>
    .assign (relabelAccess r target) (value.relabel r) (r.overflow overflow) (site.relabel r)

def relabelAccess (r : Relabel) : Access Expr → Access Expr
  | .staticField type field site => .staticField type field (site.relabel r)
  | .staticProperty type property site => .staticProperty type property (site.relabel r)
  | .staticMethod type call site => .staticMethod type (call.relabel r) (site.relabel r)
  | .instanceField target name field site =>
    .instanceField (target.relabel r) name field (site.relabel r)
  | .instanceProperty target property site =>
    .instanceProperty (target.relabel r) property (site.relabel r)
  | .instanceMethod target call site =>
    .instanceMethod (target.relabel r) (call.relabel r) (site.relabel r)
  | .dynamicMember target name site => .dynamicMember (target.relabel r) name (site.relabel r)

def Call.relabel (r : Relabel) : Call Expr → Call Expr
  | { name, typeArgs, args, method, overflow } =>
    { name, typeArgs, args := relabelArgs r args, method, overflow := r.overflow overflow }

def relabelArgs (r : Relabel) : List (Argument Expr) → List (Argument Expr)
  | [] => []
  | arg :: args => arg.relabel r :: relabelArgs r args

def Argument.relabel (r : Relabel) : Argument Expr → Argument Expr
  | { value, byRef } => { value := value.relabel r, byRef }

end

def Receiver.relabel (r : Relabel) : Receiver Expr → Receiver Expr
  | .static type => .static type
  | .object target => .object (target.relabel r)

theorem relabelArgs_eq_map (r : Relabel) (args : List (Argument Expr)) :
    relabelArgs r args = args.map (Argument.relabel r) := by
  induction args with
  | nil => rfl
  | cons arg args ih => rw [relabelArgs, ih, List.map_cons]

/-! ## What labels leave alone -/

section

variable (r : Relabel)

@[simp] theorem Call.relabel_name (call : Call Expr) : (call.relabel r).name = call.name := by
  cases call
  rfl

@[simp] theorem Call.relabel_method (call : Call Expr) :
    (call.relabel r).method = call.method := by
  cases call
  rfl

@[simp] theorem Call.relabel_type? (call : Call Expr) : (call.relabel r).type? = call.type? := by
  cases call
  rfl

@[simp] theorem Argument.relabel_byRef (arg : Argument Expr) :
    (arg.relabel r).byRef = arg.byRef := by
  cases arg
  rfl

theorem relabelAccess_site (node : Access Expr) :
    (relabelAccess r node).site = node.site.relabel r := by
  cases node <;> rfl

@[simp] theorem relabelAccess_isAssignable (node : Access Expr) :
    (relabelAccess r node).isAssignable = node.isAssignable := by
  cases node <;> rfl

@[simp] theorem relabelAccess_type? (node : Access Expr) :
    (relabelAccess r node).type? = node.type? := by
  cases node <;> simp [relabelAccess, Access.type?]

@[simp] theorem Expr.relabel_type? (expr : Expr) : (expr.relabel r).type? = expr.type? := by
  cases expr <;> simp [Expr.relabel, Expr.type?]

theorem relabelAccess_invalidTarget (node : Access Expr) (span : Span) :
    (relabelAccess r node).invalidTarget (r.span span) =
      (node.invalidTarget span).mapSpan r.span := by
  cases node <;> simp [relabelAccess, Access.invalidTarget, Access.kindName, Access.memberName,
    InteropError.mapSpan]

end

/-! ## The modes in an expression -/

mutual

/-- The overflow modes of the calls and assignments in an expression, at every depth. -/
def Expr.modes : Expr → List OverflowMode
  | .constant _ | .localVar _ | .global _ | .typeRef _ => []
  | .access node => accessModes node
  | .assign target value overflow _ => overflow :: (accessModes target ++ value.modes)

def accessModes : Access Expr → List OverflowMode
  | .staticField .. | .staticProperty .. => []
  | .staticMethod _ call _ => call.modes
  | .instanceField target _ _ _ | .instanceProperty target _ _ | .dynamicMember target _ _ =>
    target.modes
  | .instanceMethod target call _ => target.modes ++ call.modes

def Call.modes : Call Expr → List OverflowMode
  | { args, overflow, .. } => overflow :: argsModes args

def argsModes : List (Argument Expr) → List OverflowMode
  | [] => []
  | arg :: args => arg.modes ++ argsModes args

def Argument.modes : Argument Expr → List OverflowMode
  | { value, .. } => value.modes

end

section

variable (r : Relabel)

mutual

theorem Expr.modes_relabel : (expr : Expr) → (expr.relabel r).modes = expr.modes.map r.overflow
  | .constant _ | .localVar _ | .global _ | .typeRef _ => rfl
  | .access node => accessModes_relabel node
  | .assign target value _ _ => by
    simp only [Expr.relabel, Expr.modes, List.map_cons, List.map_append, accessModes_relabel target,
      value.modes_relabel]

theorem accessModes_relabel : (node : Access Expr) →
    accessModes (relabelAccess r node) = (accessModes node).map r.overflow
  | .staticField .. | .staticProperty .. => rfl
  | .staticMethod _ call _ => call.modes_relabel
  | .instanceField target _ _ _ | .instanceProperty target _ _ | .dynamicMember target _ _ =>
    target.modes_relabel
  | .instanceMethod target call _ => by
    simp only [relabelAccess, accessModes, List.map_append, target.modes_relabel,
      call.modes_relabel]

theorem Call.modes_relabel :
    (call : Call Expr) → (call.relabel r).modes = call.modes.map r.overflow
  | { args, .. } => by
    simp only [Call.relabel, Call.modes, List.map_cons, argsModes_relabel args]

theorem argsModes_relabel : (args : List (Argument Expr)) →
    argsModes (relabelArgs r args) = (argsModes args).map r.overflow
  | [] => rfl
  | arg :: args => by
    simp only [relabelArgs, argsModes, List.map_append, arg.modes_relabel,
      argsModes_relabel args]

theorem Argument.modes_relabel :
    (arg : Argument Expr) → (arg.relabel r).modes = arg.modes.map r.overflow
  | { value, .. } => value.modes_relabel

end

end

end Interop
