import Interop.Proofs.Evaluation.Run
import Mathlib.Logic.Function.Basic

/-! Local variables during evaluation. Evaluation changes a variable only where it is passed by
reference, at whatever depth. -/

namespace Interop

section

variable {σ ε ν : Type}

/-- A runtime with local variables that only a store changes. `locals` reads them off the state,
and a call gives back one value for each of its arguments. -/
structure Runtime.StoresLocals (runtime : Runtime σ ε ν) (locals : σ → Nat → ν) : Prop where
  load {binding : LocalBinding} {state next : σ} {value : ν} :
    RunM.runFrom (runtime.perform (.loadLocal binding)) state = (.ok value, next) →
      value = locals state binding.index
  perform {request : Request ν} {state next : σ} {outcome : Except ε ν} :
    RunM.runFrom (runtime.perform request) state = (outcome, next) → locals next = locals state
  invoke {invocation : Invocation ν} {state next : σ} {outcome : Except ε (ν × List ν)} :
    RunM.runFrom (runtime.invoke invocation) state = (outcome, next) → locals next = locals state
  values {invocation : Invocation ν} {state next : σ} {result : ν} {values : List ν} :
    RunM.runFrom (runtime.invoke invocation) state = (.ok (result, values), next) →
      values.length = invocation.args.length
  store {binding : LocalBinding} {value : ν} {state next : σ} :
    RunM.runFrom (runtime.store binding value) state = (.ok (), next) →
      locals next = Function.update (locals state) binding.index value

/-! ## What evaluation leaves alone -/

/-- A computation that does not change what is in a slot when it returns. -/
def Keeps {α : Type} (locals : σ → Nat → ν) (slot : Nat) (x : RunM σ ε α) : Prop :=
  ∀ state a next, RunM.runFrom x state = (.ok a, next) → locals next slot = locals state slot

/-- No part passes the variable of a slot by reference. -/
def Spares (slot : Nat) (parts : List Part) : Prop :=
  ∀ binding, .byRef binding ∈ parts → binding.index ≠ slot

theorem Spares.left {slot : Nat} {first rest : List Part} (h : Spares slot (first ++ rest)) :
    Spares slot first := fun binding hbinding => h binding (List.mem_append_left _ hbinding)

theorem Spares.right {slot : Nat} {first rest : List Part} (h : Spares slot (first ++ rest)) :
    Spares slot rest := fun binding hbinding => h binding (List.mem_append_right _ hbinding)

theorem Spares.tail {slot : Nat} {part : Part} {parts : List Part}
    (h : Spares slot (part :: parts)) : Spares slot parts :=
  fun binding hbinding => h binding (List.mem_cons_of_mem _ hbinding)

theorem Spares.index_ne {slot : Nat} {args : List (Argument Expr)} {binding : LocalBinding}
    (h : Spares slot (argumentsParts args)) (hbinding : some binding ∈ args.map Argument.byRef) :
    binding.index ≠ slot := by
  obtain ⟨⟨value, byRef⟩, harg, rfl⟩ := List.mem_map.mp hbinding
  exact h binding (mem_argumentsParts.mpr ⟨_, harg, List.mem_cons_self⟩)

namespace Keeps

variable {α β : Type} {locals : σ → Nat → ν} {slot : Nat}

theorem pure (a : α) : Keeps locals slot (Pure.pure a : RunM σ ε α) := by
  intro state b next h
  cases h
  rfl

theorem throw (e : ε) : Keeps locals slot (MonadExcept.throw e : RunM σ ε α) := by
  intro state b next h
  cases h

theorem bind {x : RunM σ ε α} {f : α → RunM σ ε β} (hx : Keeps locals slot x)
    (hf : ∀ a, RunM.Returns x a → Keeps locals slot (f a)) : Keeps locals slot (x >>= f) := by
  intro state b last h
  obtain ⟨a, next, hfirst, hrest⟩ := RunM.bind_ok h
  rw [hf a ⟨state, next, hfirst⟩ next b last hrest, hx state a next hfirst]

end Keeps

variable {runtime : Runtime σ ε ν} {locals : σ → Nat → ν} {slot : Nat}

theorem keeps_perform (hruntime : runtime.StoresLocals locals) (request : Request ν) :
    Keeps locals slot (runtime.perform request) := by
  intro state value next h
  rw [hruntime.perform h]

theorem keeps_convertTo (hruntime : runtime.StoresLocals locals) (value : ν) (type : HostType)
    (overflow : OverflowMode) : Keeps locals slot (runtime.convertTo value type overflow) := by
  unfold Runtime.convertTo
  split
  · exact .pure value
  · exact keeps_perform hruntime _
  · exact .throw _

theorem keeps_writeBack (hruntime : runtime.StoresLocals locals) {pairs : List (Argument ν × ν)}
    (h : ∀ pair ∈ pairs, ∀ binding, pair.1.byRef = some binding → binding.index ≠ slot) :
    Keeps locals slot (runtime.writeBack pairs) := by
  induction pairs with
  | nil => exact .pure ()
  | cons pair rest ih =>
    have hrest := ih fun other hother => h other (List.mem_cons_of_mem _ hother)
    rcases pair with ⟨⟨given, byRef⟩, left⟩
    cases byRef with
    | none => exact .bind (.pure ()) fun _ _ => hrest
    | some binding =>
      have hstore : Keeps locals slot (runtime.store binding left) := by
        intro state _ next hnext
        have hne : slot ≠ binding.index := (h _ List.mem_cons_self binding rfl).symm
        rw [hruntime.store hnext, Function.update_of_ne hne]
      exact .bind hstore fun _ _ => hrest

theorem keeps_finishCall (hruntime : runtime.StoresLocals locals) {call : Call Expr}
    {args : List (Argument ν)} (hargs : args.map Argument.byRef = call.args.map Argument.byRef)
    (h : Spares slot (argumentsParts call.args)) (receiver : Receiver ν) :
    Keeps locals slot (runtime.finishCall receiver call args) := by
  rw [finishCall_eq]
  refine .bind (fun state outcome next hnext => by rw [hruntime.invoke hnext]) ?_
  rintro ⟨result, values⟩ _
  refine .bind (keeps_writeBack hruntime ?_) fun _ _ => .pure result
  intro pair hpair binding hbinding
  refine h.index_ne ?_
  rw [← hargs, ← hbinding]
  exact List.mem_map_of_mem (List.of_mem_zip hpair).1

mutual

theorem Expr.keeps (hruntime : runtime.StoresLocals locals) : (expr : Expr) →
    Spares slot expr.parts → Keeps locals slot (expr.eval runtime)
  | .constant _, _ | .localVar _, _ | .global _, _ | .typeRef _, _ => keeps_perform hruntime _
  | .access node, h => keeps_evalAccess hruntime node h.tail
  | .assign target value overflow _, h =>
    keeps_evalStore hruntime target h.tail.left (value.keeps hruntime h.tail.right) overflow

theorem keeps_evalAccess (hruntime : runtime.StoresLocals locals) : (node : Access Expr) →
    Spares slot (innerParts node) → Keeps locals slot (evalAccess runtime node)
  | .staticField .., _ | .staticProperty .., _ => keeps_perform hruntime _
  | .staticMethod _ call _, h =>
    .bind (keeps_evalCall hruntime call h) fun _ hargs =>
      keeps_finishCall hruntime (evalCall_byRef hargs) (call.parts_eq ▸ h) _
  | .instanceField target _ (some _) _, h | .instanceField target _ none _, h
  | .instanceProperty target _ _, h | .dynamicMember target _ _, h =>
    .bind (target.keeps hruntime h) fun _ _ => keeps_perform hruntime _
  | .instanceMethod target call _, h =>
    .bind (target.keeps hruntime h.left) fun _ _ =>
      .bind (keeps_evalCall hruntime call h.right) fun _ hargs =>
        keeps_finishCall hruntime (evalCall_byRef hargs) (call.parts_eq ▸ h.right) _

theorem keeps_evalStore (hruntime : runtime.StoresLocals locals) : (node : Access Expr) →
    Spares slot (innerParts node) → {value : RunM σ ε ν} → Keeps locals slot value →
    (overflow : OverflowMode) → Keeps locals slot (evalStore runtime node value overflow)
  | .staticField .., _, _, hvalue, overflow | .staticProperty .., _, _, hvalue, overflow => by
    rw [evalStore]
    split
    · exact .throw _
    · refine .bind hvalue fun value _ => .bind (keeps_convertTo hruntime value _ overflow) ?_
      exact fun _ _ => keeps_perform hruntime _
  | .instanceField target _ none _, h, _, hvalue, _ => by
    rw [evalStore]
    split
    · exact .throw _
    · refine .bind (target.keeps hruntime h) fun _ _ => .bind hvalue fun _ _ => ?_
      exact keeps_perform hruntime _
  | .instanceField target _ (some _) _, h, _, hvalue, overflow
  | .instanceProperty target _ _, h, _, hvalue, overflow => by
    rw [evalStore]
    split
    · exact .throw _
    · refine .bind (target.keeps hruntime h) fun _ _ => .bind hvalue fun value _ => ?_
      exact .bind (keeps_convertTo hruntime value _ overflow) fun _ _ => keeps_perform hruntime _
  | .staticMethod .., _, _, _, _ | .instanceMethod .., _, _, _, _ | .dynamicMember .., _, _, _, _ =>
    .throw _

theorem keeps_evalCall (hruntime : runtime.StoresLocals locals) : (call : Call Expr) →
    Spares slot call.parts → Keeps locals slot (evalCall runtime call)
  | { args, .. }, h => keeps_evalArgs hruntime _ _ args h

theorem keeps_evalArgs (hruntime : runtime.StoresLocals locals) (params : List HostType)
    (overflow : OverflowMode) : (args : List (Argument Expr)) →
    Spares slot (argumentsParts args) → Keeps locals slot (evalArgs runtime params overflow args)
  | [], _ => .pure []
  | arg :: args, h =>
    .bind (keeps_evalArgument hruntime params.head? overflow arg h.left) fun _ _ =>
      .bind (keeps_evalArgs hruntime params.tail overflow args h.right) fun _ _ => .pure _

theorem keeps_evalArgument (hruntime : runtime.StoresLocals locals) (param : Option HostType)
    (overflow : OverflowMode) : (arg : Argument Expr) →
    Spares slot (argumentParts arg) → Keeps locals slot (evalArgument runtime param overflow arg)
  | { byRef := some _, .. }, _ => .bind (keeps_perform hruntime _) fun _ _ => .pure _
  | { value, byRef := none }, h =>
    .bind (value.keeps hruntime h) fun object _ =>
      match param with
      | some type => .bind (keeps_convertTo hruntime object type overflow) fun _ _ => .pure _
      | none => .pure _

end

end

end Interop
