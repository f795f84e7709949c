import Interop.Proofs.Analysis.Inversion

/-! What analysis builds. Every access in an expression that was analyzed, at any depth, has what
the host answered for its member, and what is assigned to can be assigned. -/

namespace Interop

/-- The expressions that analysis builds over a host. -/
inductive Built (host : Host) : Expr → Prop
  | constant (literal : Literal) : Built host (.constant literal)
  | localVar (binding : LocalBinding) : Built host (.localVar binding)
  | global (name : String) : Built host (.global name)
  | typeRef (type : HostType) : Built host (.typeRef type)
  | access {node : Access Expr} : Resolved host node →
      (∀ operand ∈ node.operands, Built host operand) → Built host (.access node)
  | assign {node : Access Expr} {value : Expr} {overflow : OverflowMode} {site : Site} :
      Resolved host node → node.isAssignable →
      (∀ operand ∈ node.operands, Built host operand) → Built host value →
      Built host (.assign node value overflow site)

/-- What holds of an expression if it holds of its children, holds of all that analysis builds. -/
theorem Built.child_induction {host : Host} {motive : Expr → Prop} {expr : Expr}
    (h : Built host expr)
    (step : ∀ expr, (∀ child ∈ expr.children, motive child) → motive expr) : motive expr := by
  induction h with
  | constant | localVar | global | typeRef =>
    exact step _ fun _ hchild => absurd hchild List.not_mem_nil
  | access _ _ ih => exact step _ ih
  | assign _ _ _ _ ih ihvalue =>
    refine step _ fun child hchild => ?_
    rcases List.mem_append.mp hchild with hmem | hmem
    · exact ih child hmem
    · rwa [List.mem_singleton.mp hmem]

/-- An analyzer that builds. -/
def Builds (analyze : Analyzer) : Prop :=
  ∀ context form expr, (analyze context form).result = .ok expr → Built context.host expr

section

variable {analyze : Analyzer} {context : Context}

theorem datumExpr_built {span : Span} {datum : Datum} {expr : Expr}
    (h : (datumExpr context span datum).result = .ok expr) : Built context.host expr := by
  rcases datumExpr_cases h with ⟨literal, rfl⟩ | ⟨_, binding, _, rfl⟩ | ⟨name, rfl⟩ | ⟨type, rfl⟩
  · exact .constant literal
  · exact .localVar binding
  · exact .global name
  · exact .typeRef type

theorem argument_built (ha : Builds analyze) {form : Form} {arg : Argument Expr}
    (h : (argument analyze context form).result = .ok arg) : Built context.host arg.value := by
  rcases argument_cases h with ⟨binding, _, rfl⟩ | ⟨value, hvalue, rfl⟩
  · exact .localVar binding
  · exact ha { context with assigning := false } form value hvalue

theorem targetReceiver_built (ha : Builds analyze) {form : Form} {receiver : Receiver Expr}
    (h : (targetReceiver analyze context form).result = .ok receiver) :
    ∀ target ∈ receiver.target?.toList, Built context.host target := by
  intro target htarget
  rcases targetReceiver_cases h with ⟨type, _, rfl⟩ | ⟨value, _, hvalue, rfl⟩
  · cases htarget
  · obtain rfl : target = value := List.mem_singleton.mp htarget
    exact ha { context with assigning := false } form target hvalue

theorem analyzeAccess_built (ha : Builds analyze) {form : Form} {node : Access Expr}
    (h : (analyzeAccess analyze context form).result = .ok node) :
    ∀ operand ∈ node.operands, Built context.host operand := by
  obtain ⟨marker, target, member, rest, receiver, _, hreceiver, h⟩ := analyzeAccess_cases h
  have hreceiver := targetReceiver_built ha hreceiver
  rcases h with ⟨symbol, _, _, h⟩ | ⟨_, h⟩
  · rw [(nullaryAccess_cases h).2.2]
    exact hreceiver
  · obtain ⟨symbol, tail, call, _, _, _, hargs, _, rfl⟩ := callAccess_cases h
    rw [operands_methodNode]
    intro operand hoperand
    rcases List.mem_append.mp hoperand with hoperand | hoperand
    · exact hreceiver operand hoperand
    · obtain ⟨arg, harg, rfl⟩ := List.mem_map.mp hoperand
      obtain ⟨inner, _, hinner⟩ := Logged.exists_of_mem_mapM hargs harg
      exact argument_built ha hinner

theorem assignExpr_built (ha : Builds analyze) {items : List Form} {span : Span} {expr : Expr}
    (h : (assignExpr analyze context items span).result = .ok expr) :
    Built context.host expr := by
  obtain ⟨_, _, value, node, stored, _, hnode, hassign, hstored, rfl⟩ := assignExpr_cases h
  have hresolved := analyzeAccess_resolved hnode
  have hoperands := analyzeAccess_built ha hnode
  have hvalue := ha { context with assigning := false } value stored hstored
  exact .assign hresolved hassign hoperands hvalue

theorem analyzeStep_builds (ha : Builds analyze) : Builds (analyzeStep analyze) := by
  intro context form expr h
  rcases analyzeStep_cases h with ⟨_, _, _, hdatum⟩ | ⟨node, hnode, rfl⟩ | ⟨_, _, _, _, hassign⟩
  · exact datumExpr_built hdatum
  · exact .access (analyzeAccess_resolved hnode) (analyzeAccess_built ha hnode)
  · exact assignExpr_built ha hassign

end

theorem analyzeUpTo_builds (depth : Nat) : Builds (analyzeUpTo depth) := by
  induction depth with
  | zero => exact analyzeStep_builds fun _ _ _ h => by cases h
  | succ depth ih => exact analyzeStep_builds ih

theorem analyze_builds : Builds analyze :=
  fun context form => analyzeUpTo_builds form.depth context form

end Interop
