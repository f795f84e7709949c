import Interop.Proofs.Analysis.Values
import Interop.Proofs.Analysis.Provided
import Interop.Proofs.Code.Conversions
import Interop.Proofs.Evaluation.Faults

/-! What is assigned to. A field that is left to run time is only ever the target of an assignment,
and a target can always be assigned, so neither emission nor evaluation of an analyzed expression
finds a target that it has to refuse. -/

namespace Interop

/-- An access that is not assigned to is no field that is left to run time. -/
theorem analyzeAccess_read {analyze : Analyzer} {context : Context} {form : Form}
    {node : Access Expr} (hread : context.assigning = false)
    (h : (analyzeAccess analyze context form).result = .ok node) (target : Expr) (name : String)
    (site : Site) : node ≠ .instanceField target name none site := by
  obtain ⟨_, _, member, rest, receiver, _, _, ⟨symbol, _, _, h⟩ | ⟨_, h⟩⟩ := analyzeAccess_cases h
  · cases nullaryAccess_node h with
    | deferredField hassigning =>
      rw [hread] at hassigning
      cases hassigning
    | _ => nofun
  · obtain ⟨_, _, call, _, _, _, _, _, rfl⟩ := callAccess_cases h
    cases receiver <;> nofun

theorem analyze_read {context : Context} {form : Form} {expr : Expr}
    (hread : context.assigning = false) (h : (analyze context form).result = .ok expr)
    (target : Expr) (name : String) (site : Site) :
    expr ≠ .access (.instanceField target name none site) := by
  rw [analyze_eq] at h
  rcases analyzeStep_cases h with ⟨_, _, _, hdatum⟩ | ⟨node, hnode, rfl⟩ | ⟨_, _, _, _, hassign⟩
  · rcases datumExpr_cases hdatum with ⟨_, rfl⟩ | ⟨_, _, _, rfl⟩ | ⟨_, rfl⟩ | ⟨_, rfl⟩ <;> nofun
  · intro heq
    exact analyzeAccess_read hread hnode target name site (Expr.access.inj heq)
  · obtain ⟨_, _, _, node, stored, _, _, _, _, rfl⟩ := assignExpr_cases hassign
    nofun

/-- What is assigned to can be assigned. -/
theorem analyze_assignable {context : Context} {form : Form} {node : Access Expr} {stored : Expr}
    {overflow : OverflowMode} {site : Site}
    (h : (analyze context form).result = .ok (.assign node stored overflow site)) :
    node.isAssignable := by
  cases analyze_builds context form _ h with
  | assign _ hassign _ _ => exact hassign

/-- Neither a call nor a member that is left to run time can be assigned. -/
theorem Access.shape_of_isAssignable {α : Type} {node : Access α} (h : node.isAssignable) :
    node.call? = none ∧ ∀ target name site, node ≠ .dynamicMember target name site := by
  cases node with
  | staticMethod => cases h
  | instanceMethod => cases h
  | dynamicMember => cases h
  | _ => exact ⟨rfl, nofun⟩

/-- **Targets of assignments.** In what a form means where nothing is assigned to, no value at any
depth is a field that is left to run time, and the target of every assignment can be assigned; it is
neither a call nor a member that is looked up when it is reached. No code of the expression is
refused but for a conversion to the type of no value; and evaluation on any runtime fails with
nothing but this or what the runtime raised in an operation. -/
theorem assignment_targets {context : Context} {form : Form} {expr : Expr}
    (hread : context.assigning = false) (h : (analyze context form).result = .ok expr) :
    (∀ value : Expr, value.Inside expr →
      (∀ target name site, value ≠ .access (.instanceField target name none site)) ∧
      ∀ node stored overflow site, value = .assign node stored overflow site →
        node.isAssignable ∧ node.call? = none ∧
          ∀ target name site, node ≠ .dynamicMember target name site) ∧
    (∀ e, expr.code = .error e → e = .voidParameter) ∧
    ∀ {σ ε ν : Type} (runtime : Runtime σ ε ν) (state : σ) (e : ε) (last : σ),
      RunM.runFrom (expr.eval runtime) state = (.error e, last) →
        runtime.Raises e ∨ e = runtime.fault .voidParameter := by
  have hbuilt := analyze_builds context form expr h
  refine ⟨?_, ?_, fun runtime => hbuilt.reports⟩
  · intro value hvalue
    obtain ⟨context', source, hread', hmeans⟩ :
        ∃ context' source, Context.assigning context' = false ∧
          (analyze context' source).result = .ok value := by
      rcases analyze_inside h hvalue with rfl | ⟨source, _, hmeans⟩
      · exact ⟨context, form, hread, h⟩
      · exact ⟨{ context with assigning := false }, source, rfl, hmeans⟩
    refine ⟨analyze_read hread' hmeans, ?_⟩
    rintro node stored overflow site rfl
    have hassign := analyze_assignable hmeans
    exact ⟨hassign, Access.shape_of_isAssignable hassign⟩
  · intro e he
    rcases hbuilt.emits.code with ⟨⟨code, hok⟩, -⟩ | ⟨herror, -⟩
    · rw [hok] at he
      cases he
    · rw [herror] at he
      exact (Except.error.inj he).symm

/-- `(set! (. n width) 10)` where nothing is known of a variable `n`. -/
theorem assignment_targets_width :
    let word (name : String) : Form := .leaf (.symbol { name }) {}
    let list (items : List Form) : Form := .group .paren items {}
    let form := list [word "set!", list [word ".", word "n", word "width"], .leaf (.int 10) {}]
    let context : Context := { maxContext with locals := LexicalEnv.bind {} "n" none }
    let site : Site := { source := "max", span := {} }
    let node : Access Expr :=
      .instanceField (.localVar { name := "n", index := 0 }) "width" none site
    context.assigning = false ∧
      (analyze context form).result = .ok (.assign node (.constant (.int 10)) .checked site) ∧
      node.isAssignable := by
  intro word list form context site node
  have hexpr : (analyze context form).result =
      .ok (.assign node (.constant (.int 10)) .checked site) := rfl
  have hread : context.assigning = false := rfl
  have hwhole := (assignment_targets hread hexpr).1 _ .self
  exact ⟨hread, hexpr, (hwhole.2 _ _ _ _ rfl).1⟩

end Interop
