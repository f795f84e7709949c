import Interop.Proofs.Analysis.Provided
import Interop.Proofs.Evaluation.Recording
import Interop.DryRun

/-! Evaluation and code agree. Evaluation asks a runtime for the operations that the emitted code
stands for, in its order, and for all of them unless one fails. -/

namespace Interop

namespace Linking

variable {σ ε α β : Type}

/-- The second computation records the first, and its steps follow the linked code if there is
any. -/
def Agrees (link : Linking) (x : RunM σ ε α) (y : RunM (Recording σ ε) ε α) : Prop :=
  ∀ linked, link = { log := linked, result := .ok () } → Records x y (Linked.operations linked)

/-- Linked code that asks a runtime for nothing. -/
def Silent (link : Linking) : Prop :=
  ∀ linked, link = { log := linked, result := .ok () } → Linked.operations linked = []

/-! ## Steps of agreement -/

theorem Agrees.pure (a : α) :
    Agrees (Pure.pure ()) (Pure.pure a : RunM σ ε α) (Pure.pure a) := by
  intro linked hlink
  cases hlink
  exact .pure a

theorem Agrees.of_fail {e : InteropError} {x : RunM σ ε α} {y : RunM (Recording σ ε) ε α} :
    Agrees (Logged.fail e) x y := by
  intro linked hlink
  cases hlink

theorem Agrees.bind {first : Linking} {rest : Unit → Linking} {x : RunM σ ε α}
    {y : RunM (Recording σ ε) ε α} {f : α → RunM σ ε β} {g : α → RunM (Recording σ ε) ε β}
    (hx : Agrees first x y) (hf : ∀ a, RunM.Returns x a → Agrees (rest ()) (f a) (g a)) :
    Agrees (first >>= rest) (x >>= f) (y >>= g) := by
  intro linked hlink
  obtain ⟨_, before, after, hfirst, hrest, rfl⟩ := Logged.bind_eq_ok hlink
  rw [Linked.operations_append]
  exact (hx before hfirst).bind fun a ha => hf a ha after hrest

/-- Code in front that asks for nothing changes nothing. -/
theorem Agrees.skip {first : Linking} {rest : Unit → Linking} {x : RunM σ ε α}
    {y : RunM (Recording σ ε) ε α} (hfirst : Silent first) (hx : Agrees (rest ()) x y) :
    Agrees (first >>= rest) x y := by
  intro linked hlink
  obtain ⟨_, before, after, hbefore, hrest, rfl⟩ := Logged.bind_eq_ok hlink
  rw [Linked.operations_append, hfirst before hbefore]
  exact hx after hrest

/-- Neither does code at the end. -/
theorem Agrees.trail {first : Linking} {rest : Unit → Linking} {x : RunM σ ε α}
    {y : RunM (Recording σ ε) ε α} (hx : Agrees first x y) (hrest : Silent (rest ())) :
    Agrees (first >>= rest) x y := by
  intro linked hlink
  obtain ⟨_, before, after, hbefore, hafter, rfl⟩ := Logged.bind_eq_ok hlink
  rw [Linked.operations_append, hrest after hafter, List.append_nil]
  exact hx before hbefore

/-- What is done with the value alone needs no code. -/
theorem Agrees.map {link : Linking} {x : RunM σ ε α} {y : RunM (Recording σ ε) ε α}
    (hx : Agrees link x y) (f : α → β) :
    Agrees link (x >>= fun a => Pure.pure (f a)) (y >>= fun a => Pure.pure (f a)) := by
  intro linked hlink
  rw [← List.append_nil (Linked.operations linked)]
  exact (hx linked hlink).bind fun a _ => .pure (f a)

theorem Silent.pure : Silent (Pure.pure ()) := by
  intro linked hlink
  cases hlink
  rfl

theorem silent_boxResult (type : HostType) : Silent (boxResult type) := by
  unfold boxResult
  intro linked hlink
  cases hbox : BoxAction.ofType type with
  | passThrough =>
    rw [hbox] at hlink
    exact Silent.pure linked hlink
  | _ =>
    rw [hbox] at hlink
    cases hlink
    rfl

theorem silent_convertTarget (known : Option HostType) (declaring : HostType) :
    Silent (convertTarget known declaring) := by
  unfold convertTarget
  split
  · intro linked hlink
    unfold convertTo at hlink
    cases hplan : UnboxPlan.ofType declaring .checked with
    | error e =>
      rw [hplan] at hlink
      cases hlink
    | ok plan =>
      rw [hplan] at hlink
      cases plan <;> cases hlink <;> rfl
  · exact .pure

theorem silent_forM {choice : Option β} {f : β → Linking} (h : ∀ b, Silent (f b)) :
    Silent (choice.forM f) := by
  cases choice with
  | none => exact .pure
  | some b => exact h b

/-! ## Operations -/

theorem isStore_operation {ν : Type} (request : Request ν) : request.operation.isStore = false := by
  cases request with
  | convert value plan => cases plan <;> rfl
  | _ => rfl

variable {ν : Type} (runtime : Runtime σ ε ν)

theorem agrees_perform {linked : Linked} {request : Request ν}
    (h : Linked.operations [linked] = [request.operation]) :
    Agrees (emit linked) (runtime.perform request) (runtime.recorded.perform request) := by
  intro linked' hlink
  cases hlink
  have hrecords := Records.record request.operation (runtime.perform request)
  rw [isStore_operation] at hrecords
  rw [h]
  exact hrecords

/-- A read, whose result is boxed. -/
theorem agrees_read {linked : Linked} {request : Request ν} (type : HostType)
    (h : Linked.operations [linked] = [request.operation]) :
    Agrees (do emit linked; boxResult type) (runtime.perform request)
      (runtime.recorded.perform request) :=
  .trail (agrees_perform runtime h) (silent_boxResult type)

theorem agrees_convertTo (value : ν) (type : HostType) (overflow : OverflowMode) :
    Agrees (convertTo false type overflow) (runtime.convertTo value type overflow)
      (runtime.recorded.convertTo value type overflow) := by
  unfold convertTo Runtime.convertTo
  cases UnboxPlan.ofType type overflow with
  | error e => exact .of_fail
  | ok plan =>
    cases plan with
    | identity => exact .pure value
    | _ => exact agrees_perform runtime rfl

/-- A store, whose value is converted before and boxed after it. -/
theorem agrees_write {link : Linking} {value : RunM σ ε ν} {recorded : RunM (Recording σ ε) ε ν}
    {linked : Linked} {request : ν → Request ν} (hvalue : Agrees link value recorded)
    (type : HostType) (overflow : OverflowMode)
    (h : ∀ converted, Linked.operations [linked] = [(request converted).operation]) :
    Agrees (do link; convertTo false type overflow; emit linked; boxResult type)
      (do runtime.perform (request (← runtime.convertTo (← value) type overflow)))
      (do
        runtime.recorded.perform
          (request (← runtime.recorded.convertTo (← recorded) type overflow))) :=
  .bind hvalue fun object _ =>
    .bind (agrees_convertTo runtime object type overflow) fun converted _ =>
      agrees_read runtime type (h converted)

theorem records_writeBack (args : List (Argument ν × ν)) :
    Records (runtime.writeBack args) (runtime.recorded.writeBack args) [] := by
  induction args with
  | nil => exact .pure ()
  | cons pair rest ih =>
    rcases pair with ⟨⟨given, byRef⟩, value⟩
    cases byRef with
    | none => exact Records.bind (.pure ()) fun _ _ => ih
    | some binding =>
      have hstore := Records.record (.storeLocal binding.index) (runtime.store binding value)
      exact Records.bind hstore fun _ _ => ih

theorem isStore_invocation (invocation : Invocation ν) : invocation.operation.isStore = false := by
  unfold Invocation.operation
  cases invocation.callee <;> rfl

/-- The instruction of a call stands for the invocation, for a known method since it is the one
that the call names. -/
theorem operations_call {receiver : Receiver ν} {call : Call Expr} {args : List (Argument ν)}
    (hnamed : ∀ method ∈ call.method, method.name = call.name)
    (hlength : args.length = call.arity) :
    Linked.operations [.call receiver.owner? call.signature]
      = [(call.invocation receiver args).operation] := by
  unfold Linked.operations Invocation.operation Call.invocation
  simp only [List.filter_cons, List.filter_nil, Linked.isReceiverConversion, Bool.not_false,
    if_true, List.filterMap_cons, List.filterMap_nil, Linked.instr_call]
  cases hmethod : call.method with
  | none => simp [Instr.operation?, hlength]
  | some method => simp [Instr.operation?, hlength, hnamed method hmethod]

theorem agrees_finishCall (receiver : Receiver ν) {call : Call Expr} {args : List (Argument ν)}
    (hnamed : ∀ method ∈ call.method, method.name = call.name)
    (hlength : args.length = call.arity) :
    Agrees (emit (.call receiver.owner? call.signature)) (runtime.finishCall receiver call args)
      (runtime.recorded.finishCall receiver call args) := by
  intro linked hlink
  cases hlink
  rw [operations_call hnamed hlength]
  have hinvoke (invocation : Invocation ν) :
      Records (runtime.invoke invocation) (runtime.recorded.invoke invocation)
        [invocation.operation] := by
    have hrecords := Records.record invocation.operation (runtime.invoke invocation)
    rw [isStore_invocation] at hrecords
    exact hrecords
  refine (hinvoke _).bind ?_
  rintro ⟨result, values⟩ _
  exact (records_writeBack runtime (args.zip values)).bind fun _ _ => .pure result

end Linking

/-! ## Expressions -/

/-- A known method is the one that the call names. -/
def Access.Named (node : Access Expr) : Prop :=
  ∀ call ∈ node.call?, ∀ method ∈ call.method, method.name = call.name

section

open Linking

variable {σ ε ν : Type} (runtime : Runtime σ ε ν)

mutual

theorem Expr.agrees : (expr : Expr) → (∀ node, .access node ∈ expr.parts → node.Named) →
    Agrees expr.link (expr.eval runtime) (expr.eval runtime.recorded)
  | .constant _, _ | .localVar _, _ | .global _, _ | .typeRef _, _ => agrees_perform runtime rfl
  | .access node, h => by
    refine agrees_evalAccess node (h node (by simp [Expr.parts])) fun inner hinner => ?_
    exact h inner (by simp [Expr.parts, hinner])
  | .assign target value overflow _, h => by
    have hvalue := value.agrees fun inner hinner => h inner (by simp [Expr.parts, hinner])
    refine agrees_evalStore target (fun inner hinner => ?_) hvalue overflow
    exact h inner (by simp [Expr.parts, hinner])

theorem agrees_evalAccess : (node : Access Expr) → node.Named →
    (∀ inner, .access inner ∈ innerParts node → inner.Named) →
    Agrees (linkAccess node) (evalAccess runtime node) (evalAccess runtime.recorded node)
  | .staticField .., _, _ | .staticProperty .., _, _ => agrees_read runtime _ rfl
  | .staticMethod type call _, hnamed, h => by
    refine .bind (agrees_evalCall call h) fun args hargs => ?_
    have hlength : args.length = call.arity := evalCall_length hargs
    exact .trail (agrees_finishCall runtime (.static type) (hnamed call rfl) hlength)
      (silent_forM fun _ => silent_boxResult _)
  | .instanceField target _ none _, _, h | .dynamicMember target _ _, _, h =>
    .bind (target.agrees h) fun _ _ => agrees_perform runtime rfl
  | .instanceField target _ (some _) _, _, h | .instanceProperty target _ _, _, h => by
    refine .bind (target.agrees h) fun object _ => .skip (silent_convertTarget _ _) ?_
    exact agrees_read runtime _ rfl
  | .instanceMethod target call _, hnamed, h => by
    -- the conversion of the target stands between two operations and is none
    have htarget := target.agrees fun inner hinner => h inner (List.mem_append_left _ hinner)
    have hcall := agrees_evalCall call fun inner hinner => h inner (List.mem_append_right _ hinner)
    refine .bind htarget fun object _ => ?_
    refine .skip (silent_forM fun _ => silent_convertTarget _ _) ?_
    refine .bind hcall fun args hargs => ?_
    have hlength : args.length = call.arity := evalCall_length hargs
    exact .trail (agrees_finishCall runtime (.object object) (hnamed call rfl) hlength)
      (silent_forM fun _ => silent_boxResult _)

theorem agrees_evalStore : (node : Access Expr) →
    (∀ inner, .access inner ∈ innerParts node → inner.Named) →
    {link : Linking} → {value : RunM σ ε ν} → {recorded : RunM (Recording σ ε) ε ν} →
    Agrees link value recorded → (overflow : OverflowMode) →
    Agrees (linkStore node link overflow) (evalStore runtime node value overflow)
      (evalStore runtime.recorded node recorded overflow)
  | .staticField .., _, _, _, _, hvalue, overflow
  | .staticProperty .., _, _, _, _, hvalue, overflow => by
    simp only [linkStore, evalStore]
    split
    · exact .of_fail
    · exact agrees_write runtime hvalue _ overflow fun _ => rfl
  | .instanceField target _ none _, h, _, _, _, hvalue, _ => by
    simp only [linkStore, evalStore]
    split
    · exact .of_fail
    · refine .bind (target.agrees h) fun _ _ => .bind hvalue fun _ _ => ?_
      exact agrees_perform runtime rfl
  | .instanceField target _ (some _) _, h, _, _, _, hvalue, overflow
  | .instanceProperty target _ _, h, _, _, _, hvalue, overflow => by
    simp only [linkStore, evalStore]
    split
    · exact .of_fail
    · refine .bind (target.agrees h) fun _ _ => .skip (silent_convertTarget _ _) ?_
      exact agrees_write runtime hvalue _ overflow fun _ => rfl
  | .staticMethod .., _, _, _, _, _, _ | .instanceMethod .., _, _, _, _, _, _
  | .dynamicMember .., _, _, _, _, _, _ => .of_fail

theorem agrees_evalCall : (call : Call Expr) →
    (∀ inner, .access inner ∈ call.parts → inner.Named) →
    Agrees (linkCall call) (evalCall runtime call) (evalCall runtime.recorded call)
  | { args, .. }, h => agrees_evalArgs _ _ args h

theorem agrees_evalArgs (params : List HostType) (overflow : OverflowMode) :
    (args : List (Argument Expr)) →
    (∀ inner, .access inner ∈ argumentsParts args → inner.Named) →
    Agrees (linkArgs params overflow args) (evalArgs runtime params overflow args)
      (evalArgs runtime.recorded params overflow args)
  | [], _ => .pure []
  | arg :: args, h => by
    have hfirst := agrees_evalArgument params.head? overflow arg fun inner hinner =>
      h inner (List.mem_append_left _ hinner)
    have hrest := agrees_evalArgs params.tail overflow args fun inner hinner =>
      h inner (List.mem_append_right _ hinner)
    exact .bind hfirst fun first _ => hrest.map (first :: ·)

theorem agrees_evalArgument (param : Option HostType) (overflow : OverflowMode) :
    (arg : Argument Expr) → (∀ inner, .access inner ∈ argumentParts arg → inner.Named) →
    Agrees (linkArgument param overflow arg) (evalArgument runtime param overflow arg)
      (evalArgument runtime.recorded param overflow arg)
  | { byRef := some binding, .. }, _ => by
    have hload : Agrees (Linking.emit (.loadLocalAddress binding.index))
        (runtime.perform (.loadLocal binding)) (runtime.recorded.perform (.loadLocal binding)) :=
      agrees_perform runtime rfl
    exact hload.map fun value => ({ value, byRef := some binding } : Argument ν)
  | { value, byRef := none }, h => by
    refine .bind (value.agrees h) fun object _ => ?_
    cases param with
    | some type =>
      have hconvert := agrees_convertTo runtime object type overflow
      exact hconvert.map fun value => ({ value } : Argument ν)
    | none => exact .pure ({ value := object } : Argument ν)

end

/-- **Evaluation does what the code stands for.** Whatever the runtime does, its operations during
the evaluation of an expression that was analyzed over a catalog and has code are those of the
code, in order. They end with the first that fails, whose error is the outcome. -/
theorem eval_follows_code {catalog : Catalog} {context : Context} {form : Form} {expr : Expr}
    {code : List Instr} (hhost : context.host = catalog.host)
    (hexpr : (analyze context form).result = .ok expr) (hcode : expr.code = .ok code)
    (state : σ) :
    code = expr.linked.map Linked.instr ∧
      let (outcome, last) := RunM.runFrom (expr.eval runtime) state
      ∃ steps, RunM.runFrom (expr.eval runtime.recorded) { state }
          = (outcome, { state := last, steps }) ∧
        Follows (Linked.operations expr.linked) outcome steps := by
  obtain ⟨hlink, hcode⟩ := expr.code_eq_linked hcode
  have hnamed : ∀ node, .access node ∈ expr.parts → node.Named := by
    intro node hnode call hcall method hmethod
    have hprovides := analyze_provides hhost hexpr hnode
    cases node with
    | staticMethod | instanceMethod =>
      cases hcall
      exact (hprovides method hmethod).2.1
    | _ => cases hcall
  -- the recording starts with no steps, so all of them come from this expression
  obtain ⟨steps, hrun, hsteps⟩ :=
    expr.agrees runtime hnamed expr.linked hlink state _ _ [] rfl
  exact ⟨hcode, steps, hrun, hsteps⟩

theorem eval_follows_code_max :
    let expr : Expr := .access maxNode
    Follows [.constant (.int 1), .castRoutine { kind := .int32, overflow := .checked },
        .loadLocal 0, .invoke true { type := "Math", member := "Max" } 2 []]
      (RunM.runFrom (expr.eval DryRun.runtime) {}).1
      (RunM.runFrom (expr.eval DryRun.runtime.recorded) { state := {} }).2.steps := by
  intro expr
  have hhost : maxContext.host = maxCatalog.host := rfl
  obtain ⟨_, steps, hrun, hsteps⟩ :=
    eval_follows_code DryRun.runtime hhost analyze_maxForm rfl {}
  rw [hrun]
  exact hsteps

end

end Interop
