import Interop.Proofs.DryRun

/-! Arguments that are passed by reference. Evaluation copies the variable when it comes to such an
argument, and stores what the call leaves in the copy. The last copy of a variable decides what it
holds afterwards, also when the call left that one as it was. -/

namespace Interop

section

variable {σ ε ν : Type}

/-- For every argument that passes a variable by reference, the value that was given and the one
that the call left. -/
def exchanges (slot : Nat) (pairs : List (Argument ν × ν)) : List (ν × ν) :=
  pairs.filterMap fun (arg, left) =>
    if arg.byRef.map LocalBinding.index = some slot then some (arg.value, left) else none

theorem exchanges_cons_self {binding : LocalBinding} (given left : ν)
    (rest : List (Argument ν × ν)) :
    exchanges binding.index (({ value := given, byRef := some binding }, left) :: rest)
      = (given, left) :: exchanges binding.index rest := by
  simp [exchanges]

theorem exchanges_cons_of_ne {slot : Nat} {binding : LocalBinding} (h : binding.index ≠ slot)
    (given left : ν) (rest : List (Argument ν × ν)) :
    exchanges slot (({ value := given, byRef := some binding }, left) :: rest)
      = exchanges slot rest := by
  simp [exchanges, h]

/-- No update of a variable is lost: it ends up with what the call left in an argument that it
changed, or if it changed none, with what the variable held when the call was made. -/
def Kept (held final : ν) (exchanges : List (ν × ν)) : Prop :=
  (∃ exchange ∈ exchanges, exchange.2 ≠ exchange.1 ∧ final = exchange.2) ∨
    (∀ exchange ∈ exchanges, exchange.2 = exchange.1) ∧ final = held

/-- If the last argument for a variable was changed, its value is a right one to store. If it was
not, it has to be right by chance. -/
theorem kept_iff {held given left : ν} {exchanges : List (ν × ν)}
    (hlast : exchanges.getLast? = some (given, left)) :
    Kept held left exchanges ↔ (left = given →
      (∃ exchange ∈ exchanges, exchange.2 ≠ exchange.1 ∧ exchange.2 = given) ∨
        (∀ exchange ∈ exchanges, exchange.2 = exchange.1) ∧ held = given) := by
  have hmem : (given, left) ∈ exchanges := List.mem_of_getLast? hlast
  constructor
  · rintro (⟨exchange, hexchange, hchanged, hleft⟩ | ⟨hsame, hleft⟩) hgiven
    · exact .inl ⟨exchange, hexchange, hchanged, by rw [← hleft, hgiven]⟩
    · exact .inr ⟨hsame, by rw [← hleft, hgiven]⟩
  · intro h
    by_cases hgiven : left = given
    · rcases h hgiven with ⟨exchange, hexchange, hchanged, hleft⟩ | ⟨hsame, hheld⟩
      · exact .inl ⟨exchange, hexchange, hchanged, by rw [hleft, hgiven]⟩
      · exact .inr ⟨hsame, by rw [hgiven, hheld]⟩
    · exact .inl ⟨(given, left), hmem, hgiven, rfl⟩

instance [DecidableEq ν] (held final : ν) (exchanges : List (ν × ν)) :
    Decidable (Kept held final exchanges) :=
  inferInstanceAs (Decidable ((∃ exchange ∈ exchanges, exchange.2 ≠ exchange.1 ∧
    final = exchange.2) ∨ (∀ exchange ∈ exchanges, exchange.2 = exchange.1) ∧ final = held))

variable {runtime : Runtime σ ε ν} {locals : σ → Nat → ν}

/-- The last of the arguments for a variable decides what is in it after all are written back. -/
theorem writeBack_locals (hruntime : runtime.StoresLocals locals) {pairs : List (Argument ν × ν)}
    {state last : σ} (h : RunM.runFrom (runtime.writeBack pairs) state = (.ok (), last))
    (slot : Nat) :
    locals last slot
      = ((exchanges slot pairs).getLast?.map Prod.snd).getD (locals state slot) := by
  induction pairs generalizing state with
  | nil =>
    cases h
    rfl
  | cons pair rest ih =>
    rcases pair with ⟨⟨given, byRef⟩, left⟩
    cases byRef with
    | none => exact ih h
    | some binding =>
      obtain ⟨_, next, hstore, hrest⟩ := RunM.bind_ok h
      rw [ih hrest, hruntime.store hstore]
      -- this store shows only if no later argument is for the same variable
      by_cases hslot : binding.index = slot
      · subst hslot
        rw [Function.update_self, exchanges_cons_self, List.getLast?_cons]
        cases (exchanges binding.index rest).getLast? <;> rfl
      · rw [Function.update_of_ne (Ne.symm hslot), exchanges_cons_of_ne hslot]

/-- A variable that is passed by reference has an exchange. -/
theorem exists_last_exchange {binding : LocalBinding} {args : List (Argument ν)} {values : List ν}
    (hlength : values.length = args.length) (h : some binding ∈ args.map Argument.byRef) :
    ∃ given left, (exchanges binding.index (args.zip values)).getLast? = some (given, left) := by
  obtain ⟨arg, harg, hbyRef⟩ := List.mem_map.mp h
  obtain ⟨i, hi, rfl⟩ := List.getElem_of_mem harg
  have hzip : i < (args.zip values).length := by
    rw [List.length_zip, hlength, Nat.min_self]
    exact hi
  have hpair : (args[i], values[i]) ∈ args.zip values := by
    rw [← List.getElem_zip]
    exact List.getElem_mem hzip
  have hexchange : (args[i].value, values[i]) ∈ exchanges binding.index (args.zip values) :=
    List.mem_filterMap.mpr ⟨_, hpair, by simp [hbyRef]⟩
  cases hlast : (exchanges binding.index (args.zip values)).getLast? with
  | none =>
    rw [List.getLast?_eq_none_iff] at hlast
    rw [hlast] at hexchange
    cases hexchange
  | some exchange => exact ⟨exchange.1, exchange.2, rfl⟩

/-- **What a call does to the variables that are passed by reference.** When a call has been
evaluated, each of them holds what the call left in the last argument for it. So no update of it is
lost if that argument was changed. If it was not, its copy of the variable is stored back, and
nothing is lost only if a changed argument was left with the same value, or if no argument was
changed and the copy was still what the variable held when the call was made. -/
theorem byRef_kept_iff (hruntime : runtime.StoresLocals locals) {receiver : Receiver Expr}
    {call : Call Expr} {site : Site} {state last : σ} {result : ν}
    (h : RunM.runFrom (evalAccess runtime (receiver.methodNode call site)) state
      = (.ok result, last)) :
    ∃ object args before values after,
      RunM.runFrom (evalOperands runtime receiver call) state = (.ok (object, args), before) ∧
      RunM.runFrom (runtime.invoke (call.invocation object args)) before
        = (.ok (result, values), after) ∧
      ∀ binding, some binding ∈ call.args.map Argument.byRef →
        let exchanged := exchanges binding.index (args.zip values)
        ∃ given left, exchanged.getLast? = some (given, left) ∧
          locals last binding.index = left ∧
          (Kept (locals before binding.index) (locals last binding.index) exchanged ↔
            (left = given →
              (∃ exchange ∈ exchanged, exchange.2 ≠ exchange.1 ∧ exchange.2 = given) ∨
                (∀ exchange ∈ exchanged, exchange.2 = exchange.1) ∧
                  locals before binding.index = given)) := by
  obtain ⟨object, args, before, values, after, hoperands, hinvoke, hstores⟩ :=
    evalAccess_methodNode_ok h
  refine ⟨object, args, before, values, after, hoperands, hinvoke, ?_⟩
  intro binding hbinding
  have hpassed : some binding ∈ args.map Argument.byRef := by
    obtain ⟨next, hargs⟩ := evalOperands_ok hoperands
    rw [evalCall_byRef ⟨next, before, hargs⟩]
    exact hbinding
  have hlength : values.length = args.length := hruntime.values hinvoke
  obtain ⟨given, left, hlast⟩ := exists_last_exchange hlength hpassed
  have hfinal : locals last binding.index = left := by
    rw [writeBack_locals hruntime hstores binding.index, hlast]
    rfl
  refine ⟨given, left, hlast, hfinal, ?_⟩
  rw [hfinal]
  exact kept_iff hlast

/-- The call of `(. Clock Read (by-ref n))`. -/
def readCall : Call Expr :=
  let n : LocalBinding := { name := "n", index := 0 }
  let args := [{ value := .localVar n, byRef := some n }]
  { name := "Read", args, method := none, overflow := .checked }

theorem byRef_kept_iff_read :
    let site : Site := { source := "", span := {} }
    let node : Access Expr := .staticMethod (.reference "Clock") readCall site
    ∃ (args : List (Argument String)) (values : List String) (given left : String),
      (exchanges 0 (args.zip values)).getLast? = some (given, left) ∧
        (RunM.runFrom (evalAccess DryRun.runtime node) {}).2.localText 0 = left := by
  have hrun : RunM.runFrom (evalAccess DryRun.runtime
      (Receiver.methodNode (.static (.reference "Clock")) readCall { source := "", span := {} })) {}
      = (.ok "dynamic(static Clock Read<>(&n#0=L0))", _) := Prod.ext rfl rfl
  obtain ⟨_, args, _, values, _, _, _, hkept⟩ := byRef_kept_iff DryRun.storesLocals hrun
  obtain ⟨given, left, hlast, hfinal, _⟩ := hkept { name := "n", index := 0 } (by decide)
  exact ⟨args, values, given, left, hlast, hfinal⟩

/-! ## A call in whose arguments an update is lost -/

/-- The target of `(. (. obj m (by-ref n)) f (by-ref n) (. obj g 1 (by-ref n)))`. -/
def nestedTarget : Receiver Expr :=
  let obj : LocalBinding := { name := "obj", index := 3 }
  let n : LocalBinding := { name := "n", index := 4 }
  let args := [{ value := .localVar n, byRef := some n }]
  .object (.access (.instanceMethod (.localVar obj)
    { name := "m", args, method := none, overflow := .checked } { source := "", span := {} }))

/-- The call of `f` on it. -/
def nestedCall : Call Expr :=
  let obj : LocalBinding := { name := "obj", index := 3 }
  let n : LocalBinding := { name := "n", index := 4 }
  let args := [{ value := .constant (.int 1) }, { value := .localVar n, byRef := some n }]
  let inner := .access (.instanceMethod (.localVar obj)
    { name := "g", args, method := none, overflow := .checked } { source := "", span := {} })
  { name := "f", args := [{ value := .localVar n, byRef := some n }, { value := inner }],
    method := none, overflow := .checked }

def nestedNode : Access Expr := nestedTarget.methodNode nestedCall { source := "", span := {} }

/-- The call of `f` leaves its copy of `n` as it was, and so undoes what the call of `g` stored. -/
theorem not_kept_nested :
    let operands := RunM.runFrom (evalOperands DryRun.runtime nestedTarget nestedCall) {}
    let object := Receiver.object "dynamic(L3 m<>(&n#4=L4))"
    let args : List (Argument String) :=
      [{ value := "out0", byRef := some { name := "n", index := 4 } },
        { value := "dynamic(L3 g<>(int:1, &n#4=out0))" }]
    let values := ["out0", "dynamic(L3 g<>(int:1, &n#4=out0))"]
    let call := RunM.runFrom (DryRun.runtime.invoke (nestedCall.invocation object args)) operands.2
    let last := (RunM.runFrom (evalAccess DryRun.runtime nestedNode) {}).2
    operands.1 = .ok (object, args) ∧ call.1.map Prod.snd = .ok values ∧
      operands.2.localText 4 = "out1" ∧ last.localText 4 = "out0" ∧
      ¬ Kept (operands.2.localText 4) (last.localText 4) (exchanges 4 (args.zip values)) := by
  exact ⟨rfl, rfl, by decide +kernel, by decide +kernel, by decide +kernel⟩

/-! ## Variables that are passed once -/

/-- Arguments none of which is for a variable exchange nothing for it. -/
theorem exchanges_eq_nil {slot : Nat} {args : List (Argument ν)} {values : List ν}
    (h : ∀ binding, some binding ∈ args.map Argument.byRef → binding.index ≠ slot) :
    exchanges slot (args.zip values) = [] := by
  rw [exchanges, List.filterMap_eq_nil_iff]
  rintro ⟨arg, value⟩ hpair
  have harg : arg.byRef ∈ args.map Argument.byRef := List.mem_map_of_mem (List.of_mem_zip hpair).1
  cases hbyRef : arg.byRef with
  | none => simp [hbyRef]
  | some binding =>
    rw [hbyRef] at harg
    simp [hbyRef, h binding harg]

theorem exchanges_eq_singleton {binding : LocalBinding} {given : ν} {first rest : List (Argument ν)}
    {values : List ν}
    (hlength : values.length = (first ++ { value := given, byRef := some binding } :: rest).length)
    (hfirst : ∀ other, some other ∈ first.map Argument.byRef → other.index ≠ binding.index)
    (hrest : ∀ other, some other ∈ rest.map Argument.byRef → other.index ≠ binding.index) :
    ∃ left, exchanges binding.index
        ((first ++ { value := given, byRef := some binding } :: rest).zip values)
      = [(given, left)] := by
  induction first generalizing values with
  | nil =>
    cases values with
    | nil => simp at hlength
    | cons left values =>
      refine ⟨left, ?_⟩
      rw [List.nil_append, List.zip_cons_cons, exchanges_cons_self, exchanges_eq_nil hrest]
  | cons arg first ih =>
    cases values with
    | nil => simp at hlength
    | cons value values =>
      obtain ⟨left, hleft⟩ := ih (by simpa using hlength)
        fun other hother => hfirst other (List.mem_cons_of_mem _ hother)
      refine ⟨left, ?_⟩
      rw [List.cons_append, List.zip_cons_cons, ← hleft]
      rcases arg with ⟨other, byRef⟩
      cases byRef with
      | none => rfl
      | some passed => exact exchanges_cons_of_ne (hfirst passed List.mem_cons_self) other value _

/-- The copy of a variable that the arguments after it do not change is what the variable holds
when all arguments have been evaluated. -/
theorem evalArgs_given (hruntime : runtime.StoresLocals locals) {overflow : OverflowMode}
    {front back : List (Argument Expr)} {binding : LocalBinding} {expr : Expr}
    (hback : Spares binding.index (argumentsParts back)) {params : List HostType}
    {state before : σ} {args : List (Argument ν)}
    (h : RunM.runFrom
      (evalArgs runtime params overflow (front ++ { value := expr, byRef := some binding } :: back))
      state = (.ok args, before)) :
    ∃ first rest, first.map Argument.byRef = front.map Argument.byRef ∧
      rest.map Argument.byRef = back.map Argument.byRef ∧
      args = first ++ { value := locals before binding.index, byRef := some binding } :: rest := by
  induction front generalizing params state args with
  | nil =>
    obtain ⟨arg, next, harg, h⟩ := RunM.bind_ok h
    obtain ⟨rest, last, hrest, h⟩ := RunM.bind_ok h
    obtain ⟨rfl, rfl⟩ := RunM.pure_ok h
    obtain ⟨given, loaded, hload, harg⟩ := RunM.bind_ok harg
    obtain ⟨rfl, rfl⟩ := RunM.pure_ok harg
    -- nothing after the copy touches the variable
    have hgiven : given = locals last binding.index := by
      rw [hruntime.load hload, ← hruntime.perform hload]
      exact (keeps_evalArgs hruntime _ _ back hback loaded rest last hrest).symm
    exact ⟨[], rest, rfl, evalArgs_byRef ⟨loaded, last, hrest⟩, by rw [hgiven]; rfl⟩
  | cons arg front ih =>
    obtain ⟨head, next, hhead, h⟩ := RunM.bind_ok h
    obtain ⟨tail, last, htail, h⟩ := RunM.bind_ok h
    obtain ⟨rfl, rfl⟩ := RunM.pure_ok h
    obtain ⟨first, rest, hfirst, hrest, rfl⟩ := ih htail
    refine ⟨head :: first, rest, ?_, hrest, rfl⟩
    rw [List.map_cons, List.map_cons, evalArgument_byRef ⟨state, next, hhead⟩, hfirst]

/-- **A variable that is passed once loses nothing.** If one argument of a call passes it by
reference, no argument before does, and those after it do not even do so inside, then the call is
given what the variable holds when it is made, and leaves what the variable holds afterwards. -/
theorem kept_of_passed_once (hruntime : runtime.StoresLocals locals) {receiver : Receiver Expr}
    {call : Call Expr} {site : Site} {front back : List (Argument Expr)} {binding : LocalBinding}
    {expr : Expr} {state last : σ} {result : ν}
    (hargs : call.args = front ++ { value := expr, byRef := some binding } :: back)
    (hfront : ∀ other, some other ∈ front.map Argument.byRef → other.index ≠ binding.index)
    (hback : Spares binding.index (argumentsParts back))
    (h : RunM.runFrom (evalAccess runtime (receiver.methodNode call site)) state
      = (.ok result, last)) :
    ∃ object args before values after,
      RunM.runFrom (evalOperands runtime receiver call) state = (.ok (object, args), before) ∧
      RunM.runFrom (runtime.invoke (call.invocation object args)) before
        = (.ok (result, values), after) ∧
      exchanges binding.index (args.zip values)
        = [(locals before binding.index, locals last binding.index)] ∧
      Kept (locals before binding.index) (locals last binding.index)
        (exchanges binding.index (args.zip values)) := by
  obtain ⟨object, args, before, values, after, hoperands, hinvoke, hstores⟩ :=
    evalAccess_methodNode_ok h
  refine ⟨object, args, before, values, after, hoperands, hinvoke, ?_⟩
  obtain ⟨next, hcall⟩ := evalOperands_ok hoperands
  rw [evalCall_eq, hargs] at hcall
  obtain ⟨first, rest, hfirst, hrest, rfl⟩ := evalArgs_given hruntime hback hcall
  rw [← hfirst] at hfront
  obtain ⟨left, hexchanges⟩ := exchanges_eq_singleton (hruntime.values hinvoke) hfront
    fun other hother => hback.index_ne (hrest ▸ hother)
  have hfinal : locals last binding.index = left := by
    rw [writeBack_locals hruntime hstores binding.index, hexchanges]
    rfl
  rw [hexchanges, hfinal]
  refine ⟨rfl, (kept_iff rfl).mpr fun hsame => .inr ⟨?_, rfl⟩⟩
  rw [hsame]
  simp

end

end Interop
