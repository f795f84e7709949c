import Interop.Proofs.Evaluation.Operation
import Interop.Proofs.Evaluation.Run

/-! Recordings. A recorded runtime does what the runtime does and keeps a list of the operations
that it was asked for, those that failed with their error. Evaluation under it shows what
evaluation asks a runtime for. -/

namespace Interop

structure Step (ε : Type) where
  operation : Operation
  /-- The error of an operation that failed. -/
  error? : Option ε
deriving DecidableEq

/-- The step of an operation with an outcome. -/
def Step.of {ε α : Type} (operation : Operation) : Except ε α → Step ε
  | .ok _ => { operation, error? := none }
  | .error e => { operation, error? := some e }

/-- A state with the steps that led to it, first one first. -/
structure Recording (σ ε : Type) where
  state : σ
  steps : List (Step ε) := []

section

variable {σ ε α : Type}

/-- Does a computation as one step. -/
def record (operation : Operation) (x : RunM σ ε α) : RunM (Recording σ ε) ε α :=
  ExceptT.mk fun recording =>
    let (outcome, state) := RunM.runFrom x recording.state
    (outcome, { state, steps := recording.steps ++ [.of operation outcome] })

theorem runFrom_record {operation : Operation} {x : RunM σ ε α} {state last : σ}
    {outcome : Except ε α} (before : List (Step ε))
    (h : RunM.runFrom x state = (outcome, last)) :
    RunM.runFrom (record operation x) { state, steps := before }
      = (outcome, { state := last, steps := before ++ [.of operation outcome] }) := by
  have hrecord : RunM.runFrom (record operation x) { state, steps := before } =
      let (outcome, next) := RunM.runFrom x state
      (outcome, { state := next, steps := before ++ [.of operation outcome] }) := rfl
  rw [hrecord, h]

/-- A runtime that records its steps. -/
def Runtime.recorded {ν : Type} (runtime : Runtime σ ε ν) : Runtime (Recording σ ε) ε ν where
  perform request := record request.operation (runtime.perform request)
  invoke invocation := record invocation.operation (runtime.invoke invocation)
  store binding value := record (.storeLocal binding.index) (runtime.store binding value)
  fault := runtime.fault

/-- The operations of steps, without the stores of local variables. -/
def Step.operations (steps : List (Step ε)) : List Operation :=
  (steps.map Step.operation).filter (!·.isStore)

theorem Step.operations_append (first rest : List (Step ε)) :
    Step.operations (first ++ rest) = Step.operations first ++ Step.operations rest := by
  simp [Step.operations]

/-- How steps follow a list of operations: to its end if nothing fails, and otherwise up to the
step that fails, whose error is the outcome. -/
inductive Follows (operations : List Operation) : Except ε α → List (Step ε) → Prop
  | done {a : α} {steps : List (Step ε)} :
      (∀ step ∈ steps, step.error? = none) → Step.operations steps = operations →
      Follows operations (.ok a) steps
  | failed {e : ε} {steps : List (Step ε)} {operation : Operation} :
      (∀ step ∈ steps, step.error? = none) →
      Step.operations (steps ++ [{ operation, error? := some e }]) <+: operations →
      Follows operations (.error e) (steps ++ [{ operation, error? := some e }])

/-- Steps that come after others follow what is left of a list. -/
theorem Follows.after {outcome : Except ε α} {first rest : List Operation}
    {before steps : List (Step ε)} (h : Follows rest outcome steps)
    (hnone : ∀ step ∈ before, step.error? = none) (hops : Step.operations before = first) :
    Follows (first ++ rest) outcome (before ++ steps) := by
  have hall {steps : List (Step ε)} (hsteps : ∀ step ∈ steps, step.error? = none) :
      ∀ step ∈ before ++ steps, step.error? = none := by
    intro step hstep
    rcases List.mem_append.mp hstep with hstep | hstep
    · exact hnone step hstep
    · exact hsteps step hstep
  cases h with
  | done hsteps hrest => exact .done (hall hsteps) (by rw [Step.operations_append, hops, hrest])
  | failed hsteps hpart =>
    rw [← List.append_assoc]
    refine .failed (hall hsteps) ?_
    rw [List.append_assoc, Step.operations_append, hops]
    exact (List.prefix_append_right_inj first).mpr hpart

/-- The second computation does what the first does, and records steps that follow the
operations. -/
def Records (x : RunM σ ε α) (y : RunM (Recording σ ε) ε α) (operations : List Operation) : Prop :=
  ∀ state last outcome before, RunM.runFrom x state = (outcome, last) →
    ∃ steps, RunM.runFrom y { state, steps := before }
      = (outcome, { state := last, steps := before ++ steps }) ∧ Follows operations outcome steps

theorem Records.pure (a : α) : Records (Pure.pure a : RunM σ ε α) (Pure.pure a) [] := by
  intro state last outcome before hrun
  cases hrun
  exact ⟨[], by rw [List.append_nil]; rfl, .done (by simp) rfl⟩

/-- What is done one after the other follows the one list and then the other. -/
theorem Records.bind {β : Type} {x : RunM σ ε α} {y : RunM (Recording σ ε) ε α}
    {f : α → RunM σ ε β} {g : α → RunM (Recording σ ε) ε β} {first rest : List Operation}
    (hx : Records x y first) (hf : ∀ a, RunM.Returns x a → Records (f a) (g a) rest) :
    Records (x >>= f) (y >>= g) (first ++ rest) := by
  intro state last outcome before hrun
  rcases hfirst : RunM.runFrom x state with ⟨middle, next⟩
  obtain ⟨steps, hy, hsteps⟩ := hx state next middle before hfirst
  cases hsteps with
  | failed hnone hpart =>
    rw [RunM.runFrom_bind_of_error hfirst] at hrun
    cases hrun
    rw [RunM.runFrom_bind_of_error hy]
    exact ⟨_, rfl, .failed hnone (hpart.trans (List.prefix_append first rest))⟩
  | @done a _ hnone hops =>
    rw [RunM.runFrom_bind_of_ok hfirst] at hrun
    obtain ⟨later, hg, hlater⟩ :=
      hf a ⟨state, next, hfirst⟩ next last outcome (before ++ steps) hrun
    refine ⟨steps ++ later, ?_, hlater.after hnone hops⟩
    rw [RunM.runFrom_bind_of_ok hy, hg, List.append_assoc]

/-- A recorded operation is one step. A store follows nothing. -/
theorem Records.record (operation : Operation) (x : RunM σ ε α) :
    Records x (record operation x) (if operation.isStore then [] else [operation]) := by
  intro state last outcome before hrun
  refine ⟨[.of operation outcome], runFrom_record before hrun, ?_⟩
  have hops (error? : Option ε) : Step.operations [{ operation, error? }]
      = if operation.isStore then [] else [operation] := by
    cases hstore : operation.isStore <;> simp [Step.operations, hstore]
  cases outcome with
  | ok a => exact .done (by simp [Step.of]) (hops none)
  | error e =>
    have hnone : ∀ step ∈ ([] : List (Step ε)), step.error? = none := by simp
    refine .failed hnone ?_
    rw [← hops (some e)]
    exact List.prefix_rfl

end

end Interop
