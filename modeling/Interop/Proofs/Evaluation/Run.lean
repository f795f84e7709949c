import Interop.Evaluation
import Interop.Proofs.Expr.Parts

/-! Runs of computations on a state. A computation either returns a value or fails, and has a
state in both cases; one that is made of two runs the second only if the first returned. -/

namespace Interop

namespace RunM

variable {σ ε α β : Type}

/-- The outcome of a computation that starts in a state, and the state it ends in. -/
def runFrom (x : RunM σ ε α) (state : σ) : Except ε α × σ := (ExceptT.run x).run state

@[simp] theorem runFrom_get (state : σ) :
    runFrom (get : RunM σ ε σ) state = (.ok state, state) := rfl

@[simp] theorem runFrom_set (state next : σ) :
    runFrom (set next : RunM σ ε PUnit) state = (.ok (), next) := rfl

theorem runFrom_bind (x : RunM σ ε α) (f : α → RunM σ ε β) (state : σ) :
    runFrom (x >>= f) state = match runFrom x state with
      | (.ok a, next) => runFrom (f a) next
      | (.error e, next) => (.error e, next) := by
  simp only [runFrom, bind, ExceptT.bind, ExceptT.run, ExceptT.mk, StateT.bind, StateT.run]
  rcases x state with ⟨outcome, next⟩
  cases outcome <;> rfl

theorem runFrom_bind_of_ok {x : RunM σ ε α} {f : α → RunM σ ε β} {a : α} {state next : σ}
    (h : runFrom x state = (.ok a, next)) : runFrom (x >>= f) state = runFrom (f a) next := by
  rw [runFrom_bind, h]

theorem runFrom_bind_of_error {x : RunM σ ε α} {f : α → RunM σ ε β} {e : ε} {state next : σ}
    (h : runFrom x state = (.error e, next)) : runFrom (x >>= f) state = (.error e, next) := by
  rw [runFrom_bind, h]

/-- A computation made of two returns only if both do. -/
theorem bind_ok {x : RunM σ ε α} {f : α → RunM σ ε β} {b : β} {state last : σ}
    (h : runFrom (x >>= f) state = (.ok b, last)) :
    ∃ a next, runFrom x state = (.ok a, next) ∧ runFrom (f a) next = (.ok b, last) := by
  rw [runFrom_bind] at h
  rcases hx : runFrom x state with ⟨outcome, next⟩
  rw [hx] at h
  cases outcome with
  | error e => cases h
  | ok a => exact ⟨a, next, rfl, h⟩

theorem pure_ok {a b : α} {state last : σ}
    (h : runFrom (pure a : RunM σ ε α) state = (.ok b, last)) : a = b ∧ state = last := by
  cases h
  exact ⟨rfl, rfl⟩

/-- Some run of the computation returns the value. -/
def Returns (x : RunM σ ε α) (a : α) : Prop := ∃ state last, runFrom x state = (.ok a, last)

theorem Returns.bind {x : RunM σ ε α} {f : α → RunM σ ε β} {b : β} (h : Returns (x >>= f) b) :
    ∃ a, Returns x a ∧ Returns (f a) b := by
  obtain ⟨state, last, h⟩ := h
  obtain ⟨a, next, hx, hf⟩ := bind_ok h
  exact ⟨a, ⟨state, next, hx⟩, next, last, hf⟩

theorem Returns.pure {a b : α} (h : Returns (Pure.pure a : RunM σ ε α) b) : a = b := by
  obtain ⟨state, last, h⟩ := h
  exact (pure_ok h).1

end RunM

/-! ## Arguments -/

section

variable {σ ε ν : Type} {runtime : Runtime σ ε ν}

/-- An argument keeps the local variable that it is passed by. -/
theorem evalArgument_byRef {param : Option HostType} {overflow : OverflowMode}
    {arg : Argument Expr} {value : Argument ν}
    (h : RunM.Returns (evalArgument runtime param overflow arg) value) :
    value.byRef = arg.byRef := by
  rcases arg with ⟨expr, byRef⟩
  cases byRef with
  | some binding =>
    obtain ⟨loaded, _, h⟩ := RunM.Returns.bind h
    rw [← RunM.Returns.pure h]
  | none =>
    obtain ⟨evaluated, _, h⟩ := RunM.Returns.bind h
    cases param with
    | none => rw [← RunM.Returns.pure h]
    | some type =>
      obtain ⟨converted, _, h⟩ := RunM.Returns.bind h
      rw [← RunM.Returns.pure h]

/-- There is one evaluated argument for each that was written. -/
theorem evalArgs_byRef {params : List HostType} {overflow : OverflowMode}
    {args : List (Argument Expr)} {values : List (Argument ν)}
    (h : RunM.Returns (evalArgs runtime params overflow args) values) :
    values.map Argument.byRef = args.map Argument.byRef := by
  induction args generalizing params values with
  | nil =>
    rw [evalArgs] at h
    rw [← RunM.Returns.pure h]
    rfl
  | cons arg args ih =>
    rw [evalArgs] at h
    obtain ⟨first, hfirst, h⟩ := h.bind
    obtain ⟨rest, hrest, h⟩ := h.bind
    rw [← RunM.Returns.pure h, List.map_cons, List.map_cons, evalArgument_byRef hfirst, ih hrest]

theorem evalCall_eq (call : Call Expr) : evalCall runtime call
    = evalArgs runtime ((call.method.map Method.params).getD []) call.overflow call.args := by
  cases call
  rfl

theorem evalCall_byRef {call : Call Expr} {values : List (Argument ν)}
    (h : RunM.Returns (evalCall runtime call) values) :
    values.map Argument.byRef = call.args.map Argument.byRef := by
  rw [evalCall_eq] at h
  exact evalArgs_byRef h

theorem evalCall_length {call : Call Expr} {values : List (Argument ν)}
    (h : RunM.Returns (evalCall runtime call) values) : values.length = call.arity := by
  have hlength := congrArg List.length (evalCall_byRef h)
  simpa [Call.arity] using hlength

/-! ## Calls -/

/-- What a call invokes on a receiver and arguments that have been evaluated. -/
def Call.invocation {α : Type} (call : Call α) (receiver : Receiver ν)
    (args : List (Argument ν)) : Invocation ν where
  receiver := receiver
  callee := match call.method with
    | some method => .method method
    | none => .named call.name
  typeArgs := call.typeArgList
  args := args

theorem finishCall_eq {α : Type} (call : Call α) (receiver : Receiver ν)
    (args : List (Argument ν)) :
    runtime.finishCall receiver call args = do
      let (result, values) ← runtime.invoke (call.invocation receiver args)
      runtime.writeBack (args.zip values)
      return result := rfl

variable (runtime) in
/-- Evaluates what a call is applied to: the target, if there is one, and the arguments. -/
def evalOperands (receiver : Receiver Expr) (call : Call Expr) :
    RunM σ ε (Receiver ν × List (Argument ν)) :=
  match receiver with
  | .static type => do return (.static type, ← evalCall runtime call)
  | .object target => do
    let object ← target.eval runtime
    return (.object object, ← evalCall runtime call)

theorem evalAccess_methodNode (receiver : Receiver Expr) (call : Call Expr) (site : Site) :
    evalAccess runtime (receiver.methodNode call site)
      = evalOperands runtime receiver call >>= fun (object, args) =>
          runtime.finishCall object call args := by
  cases receiver <;>
    simp only [Receiver.methodNode, evalAccess, evalOperands, bind_assoc, pure_bind]

/-- The arguments are evaluated last. -/
theorem evalOperands_ok {receiver : Receiver Expr} {call : Call Expr} {object : Receiver ν}
    {args : List (Argument ν)} {state last : σ}
    (h : RunM.runFrom (evalOperands runtime receiver call) state = (.ok (object, args), last)) :
    ∃ next, RunM.runFrom (evalCall runtime call) next = (.ok args, last) := by
  cases receiver with
  | static type =>
    obtain ⟨values, next, hvalues, h⟩ := RunM.bind_ok h
    cases RunM.pure_ok h with
    | intro heq hlast =>
      cases heq
      exact ⟨state, hlast ▸ hvalues⟩
  | object target =>
    obtain ⟨value, next, _, h⟩ := RunM.bind_ok h
    obtain ⟨values, after, hvalues, h⟩ := RunM.bind_ok h
    cases RunM.pure_ok h with
    | intro heq hlast =>
      cases heq
      exact ⟨next, hlast ▸ hvalues⟩

/-- A call that returns has evaluated its operands, invoked its method, and written its arguments
back. -/
theorem evalAccess_methodNode_ok {receiver : Receiver Expr} {call : Call Expr} {site : Site}
    {state last : σ} {result : ν}
    (h : RunM.runFrom (evalAccess runtime (receiver.methodNode call site)) state
      = (.ok result, last)) :
    ∃ object args before values after,
      RunM.runFrom (evalOperands runtime receiver call) state = (.ok (object, args), before) ∧
      RunM.runFrom (runtime.invoke (call.invocation object args)) before
        = (.ok (result, values), after) ∧
      RunM.runFrom (runtime.writeBack (args.zip values)) after = (.ok (), last) := by
  rw [evalAccess_methodNode] at h
  obtain ⟨⟨object, args⟩, before, hoperands, h⟩ := RunM.bind_ok h
  dsimp only at h
  rw [finishCall_eq] at h
  obtain ⟨⟨returned, values⟩, after, hinvoke, h⟩ := RunM.bind_ok h
  obtain ⟨_, stored, hstores, h⟩ := RunM.bind_ok h
  obtain ⟨rfl, rfl⟩ := RunM.pure_ok h
  exact ⟨object, args, before, values, after, hoperands, hinvoke, hstores⟩

end

end Interop
