import Interop.Proofs.Evaluation.Locals
import Interop.DryRun

/-! Local variables in dry runs. Every operation adds its line to the log, and only a store changes
what a later load gives. -/

namespace Interop.DryRun

open RunM (runFrom)

/-- What a local variable holds. -/
def localText (run : DryRun) (slot : Nat) : String :=
  (run.locals.lookup slot).getD ("L" ++ toString slot)

/-- The line is logged also when it is the one that fails. -/
theorem runFrom_note {line : String} {run next : DryRun} {outcome : Except DryRunError Unit}
    (h : runFrom (note line) run = (outcome, next)) :
    next = { run with log := run.log.push line } := by
  simp only [note, RunM.runFrom_bind, RunM.runFrom_get, RunM.runFrom_set] at h
  split at h <;> exact (congrArg Prod.snd h).symm

/-- What follows a line leaves the state as it is. -/
theorem runFrom_note_bind {α : Type} {line : String} {x : RunText α} {run next : DryRun}
    {outcome : Except DryRunError α} (hx : ∀ run, (runFrom x run).2 = run)
    (h : runFrom (note line >>= fun _ => x) run = (outcome, next)) :
    next = { run with log := run.log.push line } := by
  rcases hnote : runFrom (note line) run with ⟨noted, middle⟩
  rw [← runFrom_note hnote]
  cases noted with
  | error e =>
    rw [RunM.runFrom_bind_of_error hnote] at h
    exact (congrArg Prod.snd h).symm
  | ok =>
    rw [RunM.runFrom_bind_of_ok hnote] at h
    rw [← hx middle, h]

theorem perform_locals {request : Request String} {run next : DryRun}
    {outcome : Except DryRunError String}
    (h : runFrom (perform request) run = (outcome, next)) : localText next = localText run := by
  cases request with
  | _ => rw [runFrom_note_bind (fun _ => rfl) h]; rfl

theorem invoke_locals {invocation : Invocation String} {run next : DryRun}
    {outcome : Except DryRunError (String × List String)}
    (h : runFrom (invoke invocation) run = (outcome, next)) : localText next = localText run := by
  unfold invoke at h
  split at h <;> rw [runFrom_note_bind (fun _ => rfl) h] <;> rfl

theorem load_eq {binding : LocalBinding} {run next : DryRun} {value : String}
    (h : runFrom (perform (.loadLocal binding)) run = (.ok value, next)) :
    value = localText run binding.index := by
  obtain ⟨_, middle, hnote, h⟩ := RunM.bind_ok h
  obtain ⟨rfl, _⟩ := RunM.pure_ok h
  rw [runFrom_note hnote]
  rfl

theorem length_invoke {invocation : Invocation String} {run next : DryRun} {result : String}
    {values : List String} (h : runFrom (invoke invocation) run = (.ok (result, values), next)) :
    values.length = invocation.args.length := by
  unfold invoke at h
  split at h <;> obtain ⟨_, middle, _, h⟩ := RunM.bind_ok h <;> cases (RunM.pure_ok h).1 <;> simp

theorem lookup_setSlot_self (slot : Nat) (value : String) (locals : List (Nat × String)) :
    (setSlot slot value locals).lookup slot = some value := by
  fun_induction setSlot slot value locals with
  | case1 | case2 | case3 => exact List.lookup_cons_self
  | case4 other old rest _ hne ih => rw [List.lookup_cons, beq_false_of_ne hne, ih]

theorem lookup_setSlot_of_ne {slot other : Nat} (hother : other ≠ slot) (value : String)
    (locals : List (Nat × String)) :
    (setSlot slot value locals).lookup other = locals.lookup other := by
  fun_induction setSlot slot value locals with
  | case1 => rw [List.lookup_cons, beq_false_of_ne hother]
  | case2 => rw [List.lookup_cons, beq_false_of_ne hother]
  | case3 => rw [List.lookup_cons, List.lookup_cons, beq_false_of_ne hother]
  | case4 first old rest _ _ ih => rw [List.lookup_cons, List.lookup_cons, ih]

theorem store_locals {binding : LocalBinding} {value : String} {run next : DryRun}
    (h : runFrom (store binding value) run = (.ok (), next)) :
    localText next = Function.update (localText run) binding.index value := by
  obtain ⟨_, middle, hnote, h⟩ := RunM.bind_ok h
  cases h
  rw [runFrom_note hnote]
  funext slot
  by_cases h : slot = binding.index
  · rw [h, Function.update_self, localText, lookup_setSlot_self]
    rfl
  · rw [Function.update_of_ne h, localText, lookup_setSlot_of_ne h]
    rfl

/-- A dry run changes a local variable only when it stores to it. -/
theorem storesLocals : runtime.StoresLocals localText where
  load := load_eq
  perform := perform_locals
  invoke := invoke_locals
  values := length_invoke
  store := store_locals

end Interop.DryRun
