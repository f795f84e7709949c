import Interop.Proofs.Expr.Parts

/-! The accesses of an expression, at any depth, inner ones first. What a node is applied to comes
before the node, the target before the arguments, and what is assigned to before what is
assigned. -/

namespace Interop

mutual

def Expr.nodes : Expr → List (Access Expr)
  | .constant _ | .localVar _ | .global _ | .typeRef _ => []
  | .access node => innerNodes node ++ [node]
  | .assign target value _ _ => innerNodes target ++ target :: value.nodes

/-- The accesses of what a node is applied to. -/
def innerNodes : Access Expr → List (Access Expr)
  | .staticField .. | .staticProperty .. => []
  | .staticMethod _ call _ => call.nodes
  | .instanceField target _ _ _ | .instanceProperty target _ _ | .dynamicMember target _ _ =>
    target.nodes
  | .instanceMethod target call _ => target.nodes ++ call.nodes

def Call.nodes : Call Expr → List (Access Expr)
  | { args, .. } => argsNodes args

def argsNodes : List (Argument Expr) → List (Access Expr)
  | [] => []
  | arg :: args => arg.nodes ++ argsNodes args

def Argument.nodes : Argument Expr → List (Access Expr)
  | { value, .. } => value.nodes

end

theorem argsNodes_eq (args : List (Argument Expr)) :
    argsNodes args = (args.map Argument.value).flatMap Expr.nodes := by
  induction args with
  | nil => rfl
  | cons arg args ih =>
    cases arg
    rw [argsNodes, ih]
    rfl

/-- The accesses of what a member is reached through. -/
def Receiver.nodes : Receiver Expr → List (Access Expr)
  | .static _ => []
  | .object target => target.nodes

theorem innerNodes_methodNode (receiver : Receiver Expr) (call : Call Expr) (site : Site) :
    innerNodes (receiver.methodNode call site) = receiver.nodes ++ argsNodes call.args := by
  cases receiver <;> cases call <;> rfl

end Interop
