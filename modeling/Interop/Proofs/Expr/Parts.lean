import Interop.Expr.Basic
import Mathlib.Logic.Basic

/-! The parts of an expression at any depth: its accesses to members, the targets of assignments
among them, and its uses of local variables. -/

namespace Interop

inductive Part where
  | access (node : Access Expr)
  | localVar (binding : LocalBinding)
  /-- A local variable that is passed by reference. -/
  | byRef (binding : LocalBinding)

mutual

/-- The parts of an expression, outer ones first. -/
def Expr.parts : Expr → List Part
  | .constant _ | .global _ | .typeRef _ => []
  | .localVar binding => [.localVar binding]
  | .access node => .access node :: innerParts node
  | .assign target value _ _ => .access target :: (innerParts target ++ value.parts)

/-- What a node is applied to: its target and its arguments. -/
def innerParts : Access Expr → List Part
  | .staticField .. | .staticProperty .. => []
  | .staticMethod _ call _ => call.parts
  | .instanceField target _ _ _ | .instanceProperty target _ _ | .dynamicMember target _ _ =>
    target.parts
  | .instanceMethod target call _ => target.parts ++ call.parts

def Call.parts : Call Expr → List Part
  | { args, .. } => argumentsParts args

def argumentsParts : List (Argument Expr) → List Part
  | [] => []
  | arg :: args => argumentParts arg ++ argumentsParts args

def argumentParts : Argument Expr → List Part
  | { value, byRef := some binding } => .byRef binding :: value.parts
  | { value, byRef := none } => value.parts

end

/-- The parts of what a member is reached through. -/
def Receiver.parts : Receiver Expr → List Part
  | .static _ => []
  | .object target => target.parts

theorem Call.parts_eq (call : Call Expr) : call.parts = argumentsParts call.args := by
  cases call
  rfl

/-- The node of a call on a receiver. -/
def Receiver.methodNode (receiver : Receiver Expr) (call : Call Expr) (site : Site) :
    Access Expr :=
  match receiver with
  | .static type => .staticMethod type call site
  | .object target => .instanceMethod target call site

theorem Receiver.call?_methodNode (receiver : Receiver Expr) (call : Call Expr) (site : Site) :
    (receiver.methodNode call site).call? = some call := by
  cases receiver <;> rfl

theorem innerParts_methodNode (receiver : Receiver Expr) (call : Call Expr) (site : Site) :
    innerParts (receiver.methodNode call site) = receiver.parts ++ argumentsParts call.args := by
  cases receiver <;> simp [Receiver.methodNode, innerParts, Receiver.parts, Call.parts_eq]

theorem mem_argumentsParts {part : Part} {args : List (Argument Expr)} :
    part ∈ argumentsParts args ↔ ∃ arg ∈ args, part ∈ argumentParts arg := by
  induction args with
  | nil => simp [argumentsParts]
  | cons arg args ih => simp [argumentsParts, ih]

/-! ## One level -/

/-- The expressions that a node is applied to: its target and the values of its arguments. -/
def Access.operands (node : Access Expr) : List Expr :=
  node.target?.toList ++ (node.call?.elim [] Call.args).map Argument.value

theorem mem_operands_of_target? {node : Access Expr} {target : Expr}
    (h : node.target? = some target) : target ∈ node.operands :=
  List.mem_append_left _ (Option.mem_toList.mpr h)

theorem mem_operands_of_arg {node : Access Expr} {call : Call Expr} {arg : Argument Expr}
    (hcall : node.call? = some call) (harg : arg ∈ call.args) : arg.value ∈ node.operands := by
  refine List.mem_append_right _ (List.mem_map_of_mem ?_)
  rw [hcall]
  exact harg

/-- The expressions that an expression is made of. What is assigned to is none of them. -/
def Expr.children : Expr → List Expr
  | .constant _ | .localVar _ | .global _ | .typeRef _ => []
  | .access node => node.operands
  | .assign node value _ _ => node.operands ++ [value]

/-- A call on the node passes the local variable by reference. -/
def Access.Passes (node : Access Expr) (binding : LocalBinding) : Prop :=
  ∃ call, node.call? = some call ∧ ∃ arg ∈ call.args, arg.byRef = some binding

/-- The parts of what a node is applied to are those of its operands, and the local variables that
it passes by reference. -/
theorem mem_innerParts {part : Part} {node : Access Expr} :
    part ∈ innerParts node ↔ (∃ operand ∈ node.operands, part ∈ operand.parts) ∨
      ∃ binding, node.Passes binding ∧ part = .byRef binding := by
  have hargument (arg : Argument Expr) : part ∈ argumentParts arg ↔ part ∈ arg.value.parts ∨
      ∃ binding, arg.byRef = some binding ∧ part = .byRef binding := by
    rcases arg with ⟨value, _ | binding⟩ <;> simp [argumentParts, or_comm]
  have hcall (call : Call Expr) : part ∈ call.parts ↔
      (∃ arg ∈ call.args, part ∈ arg.value.parts) ∨
        ∃ binding, (∃ arg ∈ call.args, arg.byRef = some binding) ∧ part = .byRef binding := by
    rw [Call.parts_eq, mem_argumentsParts]
    simp only [hargument]
    grind
  cases node <;>
    simp [innerParts, Access.operands, Access.target?, Access.call?, Access.Passes, hcall, or_assoc]

/-- An expression stands inside another as a value: as the whole, as a target that a member is
reached through, as an argument or as what is assigned, at any depth. -/
inductive Expr.Inside (inner : Expr) : Expr → Prop
  | self : Inside inner inner
  | child {expr child : Expr} : child ∈ expr.children → Inside inner child → Inside inner expr

theorem parts_subset_of_child {expr child : Expr} (h : child ∈ expr.children) :
    child.parts ⊆ expr.parts := by
  have hinner {node : Access Expr} (hmem : child ∈ node.operands) :
      child.parts ⊆ innerParts node :=
    fun _ hpart => mem_innerParts.mpr (.inl ⟨child, hmem, hpart⟩)
  intro part hpart
  cases expr with
  | constant | localVar | global | typeRef => exact absurd h List.not_mem_nil
  | access node => exact List.mem_cons_of_mem _ (hinner h hpart)
  | assign node value overflow site =>
    refine List.mem_cons_of_mem _ (List.mem_append.mpr ?_)
    rcases List.mem_append.mp h with hmem | hmem
    · exact .inl (hinner hmem hpart)
    · rw [← List.mem_singleton.mp hmem]
      exact .inr hpart

/-- The node that an expression reads, calls or assigns to. -/
def Expr.node? : Expr → Option (Access Expr)
  | .access node | .assign node _ _ _ => some node
  | _ => none

theorem mem_parts_of_node? {expr : Expr} {node : Access Expr} (h : expr.node? = some node) :
    .access node ∈ expr.parts := by
  cases expr <;> cases h <;> exact List.mem_cons_self

/-- The parts of an expression that are not those of a child. -/
inductive TopPart (expr : Expr) : Part → Prop
  | localVar {binding : LocalBinding} : expr = .localVar binding → TopPart expr (.localVar binding)
  | access {node : Access Expr} : expr.node? = some node → TopPart expr (.access node)
  | byRef {node : Access Expr} {binding : LocalBinding} : expr.node? = some node →
      node.Passes binding → TopPart expr (.byRef binding)

theorem mem_parts_cases {expr : Expr} {part : Part} (h : part ∈ expr.parts) :
    (∃ child ∈ expr.children, part ∈ child.parts) ∨ TopPart expr part := by
  cases expr with
  | constant | global | typeRef => exact absurd h List.not_mem_nil
  | localVar binding =>
    rw [List.mem_singleton.mp h]
    exact .inr (.localVar rfl)
  | access node =>
    rcases List.mem_cons.mp h with rfl | hmem
    · exact .inr (.access rfl)
    · rcases mem_innerParts.mp hmem with hmem | ⟨binding, hpasses, rfl⟩
      · exact .inl hmem
      · exact .inr (.byRef rfl hpasses)
  | assign node value overflow site =>
    rcases List.mem_cons.mp h with rfl | hmem
    · exact .inr (.access rfl)
    · rcases List.mem_append.mp hmem with hmem | hmem
      · rcases mem_innerParts.mp hmem with ⟨operand, hoperand, hpart⟩ | ⟨binding, hpasses, rfl⟩
        · exact .inl ⟨operand, List.mem_append_left _ hoperand, hpart⟩
        · exact .inr (.byRef rfl hpasses)
      · exact .inl ⟨value, List.mem_append_right _ (List.mem_singleton.mpr rfl), hmem⟩

def Receiver.target? : Receiver Expr → Option Expr
  | .static _ => none
  | .object target => some target

theorem operands_methodNode (receiver : Receiver Expr) (call : Call Expr) (site : Site) :
    (receiver.methodNode call site).operands =
      receiver.target?.toList ++ call.args.map Argument.value := by
  cases receiver <;> rfl

end Interop
