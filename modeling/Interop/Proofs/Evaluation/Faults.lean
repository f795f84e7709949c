import Interop.Proofs.Analysis.Built
import Interop.Proofs.Evaluation.Run

/-! The errors of evaluation. An analyzed expression fails only with an error that the runtime raised
in one of its operations, or because it converts a value to the type of no value. -/

namespace Interop

section

variable {σ ε ν α β : Type}

/-- Some operation of the runtime, in some state, fails with the error. -/
inductive Runtime.Raises (runtime : Runtime σ ε ν) (e : ε) : Prop
  | perform {request : Request ν} {state last : σ} :
      RunM.runFrom (runtime.perform request) state = (.error e, last) → Raises runtime e
  | invoke {invocation : Invocation ν} {state last : σ} :
      RunM.runFrom (runtime.invoke invocation) state = (.error e, last) → Raises runtime e
  | store {binding : LocalBinding} {value : ν} {state last : σ} :
      RunM.runFrom (runtime.store binding value) state = (.error e, last) → Raises runtime e

/-- The errors that the evaluation of an analyzed expression can end with. -/
def Runtime.CanFail (runtime : Runtime σ ε ν) (e : ε) : Prop :=
  runtime.Raises e ∨ e = runtime.fault .voidParameter

/-- Whenever the computation fails, its error is one of these. -/
def FailsWith (errors : ε → Prop) (x : RunM σ ε α) : Prop :=
  ∀ state e last, RunM.runFrom x state = (.error e, last) → errors e

namespace FailsWith

variable {errors : ε → Prop}

theorem pure (a : α) : FailsWith errors (Pure.pure a : RunM σ ε α) := by
  intro state e last h
  cases h

theorem throw {e : ε} (he : errors e) : FailsWith errors (MonadExcept.throw e : RunM σ ε α) := by
  intro state e' last h
  cases h
  exact he

theorem bind {x : RunM σ ε α} {f : α → RunM σ ε β} (hx : FailsWith errors x)
    (hf : ∀ a, FailsWith errors (f a)) : FailsWith errors (x >>= f) := by
  intro state e last h
  rw [RunM.runFrom_bind] at h
  rcases hfirst : RunM.runFrom x state with ⟨outcome, next⟩
  rw [hfirst] at h
  cases outcome with
  | ok a => exact hf a next e last h
  | error e' =>
    cases h
    exact hx state e last hfirst

end FailsWith

variable {runtime : Runtime σ ε ν}

theorem perform_fails (request : Request ν) :
    FailsWith runtime.CanFail (runtime.perform request) :=
  fun _ _ _ h => .inl (.perform h)

/-- Only the type of no value is nothing to convert to. -/
theorem convertTo_fails (value : ν) (type : HostType) (overflow : OverflowMode) :
    FailsWith runtime.CanFail (runtime.convertTo value type overflow) := by
  unfold Runtime.convertTo
  split
  · exact .pure value
  · exact perform_fails _
  · rename_i e he
    have hvoid : e = .voidParameter := by
      cases type <;> cases he
      rfl
    exact .throw (.inr (by rw [hvoid]))

theorem writeBack_fails (pairs : List (Argument ν × ν)) :
    FailsWith runtime.CanFail (runtime.writeBack pairs) := by
  induction pairs with
  | nil => exact .pure ()
  | cons pair rest ih =>
    rcases pair with ⟨⟨given, byRef⟩, left⟩
    cases byRef with
    | none => exact .bind (.pure ()) fun _ => ih
    | some binding =>
      have hstore : FailsWith runtime.CanFail (runtime.store binding left) :=
        fun _ _ _ h => .inl (.store h)
      exact .bind hstore fun _ => ih

theorem finishCall_fails (receiver : Receiver ν) (call : Call Expr) (args : List (Argument ν)) :
    FailsWith runtime.CanFail (runtime.finishCall receiver call args) := by
  rw [finishCall_eq]
  have hinvoke : FailsWith runtime.CanFail (runtime.invoke (call.invocation receiver args)) :=
    fun _ _ _ h => .inl (.invoke h)
  refine hinvoke.bind fun (result, values) => ?_
  exact (writeBack_fails _).bind fun _ => .pure result

end

/-! ## Expressions -/

section

variable {σ ε ν : Type} {runtime : Runtime σ ε ν}

variable (runtime) in
/-- The evaluation of an expression has no errors of its own but that one. -/
def Expr.Reports (expr : Expr) : Prop := FailsWith runtime.CanFail (expr.eval runtime)

theorem evalArgument_fails {param : Option HostType} {overflow : OverflowMode}
    {arg : Argument Expr} (h : arg.value.Reports runtime) :
    FailsWith runtime.CanFail (evalArgument runtime param overflow arg) := by
  rcases arg with ⟨value, byRef⟩
  cases byRef with
  | some binding => exact (perform_fails _).bind fun _ => .pure _
  | none =>
    refine FailsWith.bind h fun object => ?_
    cases param with
    | none => exact .pure _
    | some type => exact (convertTo_fails object type overflow).bind fun _ => .pure _

theorem evalArgs_fails {params : List HostType} {overflow : OverflowMode}
    {args : List (Argument Expr)} (h : ∀ arg ∈ args, arg.value.Reports runtime) :
    FailsWith runtime.CanFail (evalArgs runtime params overflow args) := by
  induction args generalizing params with
  | nil => exact .pure []
  | cons arg args ih =>
    have hrest := @ih params.tail fun other hother => h other (List.mem_cons_of_mem arg hother)
    refine (evalArgument_fails (h arg List.mem_cons_self)).bind fun first => ?_
    exact hrest.bind fun rest => .pure _

theorem evalCall_fails {call : Call Expr} (h : ∀ arg ∈ call.args, arg.value.Reports runtime) :
    FailsWith runtime.CanFail (evalCall runtime call) := by
  rw [evalCall_eq]
  exact evalArgs_fails h

theorem evalAccess_fails {node : Access Expr}
    (h : ∀ operand ∈ node.operands, operand.Reports runtime) :
    FailsWith runtime.CanFail (evalAccess runtime node) := by
  have htarget : ∀ target, node.target? = some target → target.Reports runtime := by
    intro target heq
    exact h target (mem_operands_of_target? heq)
  have hargs : ∀ call, node.call? = some call →
      FailsWith runtime.CanFail (evalCall runtime call) := by
    intro call heq
    exact evalCall_fails fun arg harg => h arg.value (mem_operands_of_arg heq harg)
  cases node with
  | staticField type field site => exact perform_fails _
  | staticProperty type property site => exact perform_fails _
  | staticMethod type call site =>
    exact (hargs call rfl).bind fun args => finishCall_fails _ call args
  | instanceField target name field site =>
    cases field <;> exact FailsWith.bind (htarget target rfl) fun object => perform_fails _
  | instanceProperty target property site =>
    exact FailsWith.bind (htarget target rfl) fun object => perform_fails _
  | instanceMethod target call site =>
    refine FailsWith.bind (htarget target rfl) fun object => ?_
    exact (hargs call rfl).bind fun args => finishCall_fails _ call args
  | dynamicMember target name site =>
    exact FailsWith.bind (htarget target rfl) fun object => perform_fails _

/-- A store through a node that can be assigned has no errors of its own. -/
theorem evalStore_fails {node : Access Expr} {value : RunM σ ε ν} (hassign : node.isAssignable)
    (h : ∀ operand ∈ node.operands, operand.Reports runtime)
    (hvalue : FailsWith runtime.CanFail value) (overflow : OverflowMode) :
    FailsWith runtime.CanFail (evalStore runtime node value overflow) := by
  have htarget : ∀ target, node.target? = some target → target.Reports runtime := by
    intro target heq
    exact h target (mem_operands_of_target? heq)
  have hwrite (type : HostType) (request : ν → Request ν) :
      FailsWith runtime.CanFail (do
        let value ← runtime.convertTo (← value) type overflow
        runtime.perform (request value)) := by
    refine hvalue.bind fun object => ?_
    exact (convertTo_fails object type overflow).bind fun _ => perform_fails _
  unfold evalStore
  rw [hassign]
  cases node with
  | staticField type field site => exact hwrite field.type _
  | staticProperty type property site => exact hwrite property.type _
  | instanceField target name field site =>
    cases field with
    | none =>
      refine FailsWith.bind (htarget target rfl) fun object => ?_
      exact hvalue.bind fun _ => perform_fails _
    | some field => exact FailsWith.bind (htarget target rfl) fun object => hwrite field.type _
  | instanceProperty target property site =>
    exact FailsWith.bind (htarget target rfl) fun object => hwrite property.type _
  | staticMethod type call site => cases hassign
  | instanceMethod target call site => cases hassign
  | dynamicMember target name site => cases hassign

/-- **What evaluation can fail with.** -/
theorem Built.reports {host : Host} {expr : Expr} (h : Built host expr) : expr.Reports runtime := by
  induction h with
  | constant literal => exact perform_fails _
  | localVar binding => exact perform_fails _
  | global name => exact perform_fails _
  | typeRef type => exact perform_fails _
  | access _ _ ih => exact evalAccess_fails ih
  | assign _ hassign _ _ ih ihvalue => exact evalStore_fails hassign ih ihvalue _

end

end Interop
