import Interop.Code.Emission
import Interop.Proofs.Analysis.Built
import Interop.Proofs.Analysis.Provided
import Interop.Proofs.Analysis.Values
import Interop.Proofs.Scope

/-! Local variables in code. A local variable is looked up in two places, where its name is a value and
where it is passed by reference, and the code loads what was found there. So every slot in the code
is the one of the innermost binding of a name that is written in the form. -/

namespace Interop

/-! ## In an expression -/

/-- A local variable inside an expression is a value in it. -/
theorem Built.localVar_inside {host : Host} {expr : Expr} {binding : LocalBinding}
    (h : Built host expr) :
    .localVar binding ∈ expr.parts → (Expr.localVar binding).Inside expr := by
  apply h.child_induction
  intro expr ih hpart
  rcases mem_parts_cases hpart with ⟨child, hchild, hpart⟩ | htop
  · exact .child hchild (ih child hchild hpart)
  · cases htop with
    | localVar heq =>
      rw [heq]
      exact .self

/-- What is passed by reference inside an expression is passed by one of its nodes. -/
theorem Built.exists_passes {host : Host} {expr : Expr} {binding : LocalBinding}
    (h : Built host expr) : .byRef binding ∈ expr.parts →
      ∃ node, .access node ∈ expr.parts ∧ node.Passes binding := by
  apply h.child_induction
  intro expr ih hpart
  rcases mem_parts_cases hpart with ⟨child, hchild, hpart⟩ | htop
  · obtain ⟨node, hnode, hpasses⟩ := ih child hchild hpart
    exact ⟨node, parts_subset_of_child hchild hnode, hpasses⟩
  · cases htop with
    | byRef hnode hpasses => exact ⟨_, mem_parts_of_node? hnode, hpasses⟩

/-! ## In a form -/

/-- A symbol inside the form stands for the local variable. -/
def Context.BindsIn (context : Context) (form : Form) (binding : LocalBinding) : Prop :=
  ∃ source : Form, source.Inside form ∧ ∃ symbol, source.symbol? = some symbol ∧
    context.locals.lookup? symbol = some binding

section

variable {context : Context} {form : Form}

/-- What is passed by reference has the local variable itself as its value. -/
theorem Context.Writes.byRef {node : Access Expr} {call : Call Expr} {arg : Argument Expr}
    {binding : LocalBinding} (h : context.Writes form node) (hcall : node.call? = some call)
    (harg : arg ∈ call.args) (hbyRef : arg.byRef = some binding) :
    arg.value = .localVar binding ∧ context.BindsIn form binding := by
  obtain ⟨assigning, h⟩ := h
  obtain ⟨marker, target, member, rest, receiver, hlist, _, h⟩ := analyzeAccess_cases h
  rcases h with ⟨symbol, _, _, h⟩ | ⟨_, h⟩
  · -- A member alone has no arguments.
    cases nullaryAccess_node h with
    | staticMethod | instanceMethod =>
      obtain rfl := Option.some.inj hcall
      exact absurd harg List.not_mem_nil
    | _ => cases hcall
  · obtain ⟨symbol, tail, found, hparts, _, _, hargs, _, rfl⟩ := callAccess_cases h
    rw [Receiver.call?_methodNode] at hcall
    cases hcall
    obtain ⟨inner, hinner, hok⟩ := Logged.exists_of_mem_mapM hargs harg
    rcases argument_cases hok with ⟨found, hfound, rfl⟩ | ⟨value, _, rfl⟩
    · cases hbyRef
      obtain ⟨_, operand, symbol, hitems, hsymbol, hlookup⟩ := byRefLocal_eq_ok hfound
      have hinside := (argument_inside hlist hparts hinner).1
      exact ⟨rfl, operand, .trans (.of_list? hitems (by simp)) hinside, symbol, hsymbol, hlookup⟩
    · cases hbyRef

/-- Every local variable in an expression is what a symbol in the form stands for. -/
theorem analyze_bindsIn {expr : Expr} {binding : LocalBinding}
    (h : (analyze context form).result = .ok expr)
    (hpart : .localVar binding ∈ expr.parts ∨ .byRef binding ∈ expr.parts) :
    context.BindsIn form binding := by
  have hbuilt := analyze_builds context form expr h
  rcases hpart with hpart | hpart
  · rcases analyze_inside h (hbuilt.localVar_inside hpart) with rfl | ⟨source, hsource, hmeans⟩
    · exact ⟨form, .self, symbol?_of_analyze h⟩
    · obtain ⟨symbol, hsymbol, hlookup⟩ := symbol?_of_analyze hmeans
      exact ⟨source, hsource, symbol, hsymbol, hlookup⟩
  · obtain ⟨node, hnode, call, hcall, arg, harg, hbyRef⟩ := hbuilt.exists_passes hpart
    obtain ⟨inner, hinner, hwrites⟩ := analyze_gives h _ hnode
    obtain ⟨_, source, hsource, hsymbol⟩ := hwrites.byRef hcall harg hbyRef
    exact ⟨source, hsource.trans hinner, hsymbol⟩

end

/-! ## In code -/

/-- The slot that an instruction loads, or loads the address of. -/
def Instr.slot? : Instr → Option Nat
  | .loadLocal slot | .loadLocalAddress slot => some slot
  | _ => none

/-- The instruction that loads what a part of an expression uses. -/
def Part.load? : Part → Option Instr
  | .access _ => none
  | .localVar binding => some (.loadLocal binding.index)
  | .byRef binding => some (.loadLocalAddress binding.index)

namespace Emission

/-- Code that loads only local variables that some parts use. -/
def Loads (P : Part → Prop) (emission : Emission) : Prop :=
  ∀ instr ∈ emission.log, instr.slot?.isSome → ∃ part, P part ∧ part.load? = some instr

variable {P Q : Part → Prop}

theorem Loads.mono {emission : Emission} (h : Loads P emission) (hPQ : ∀ part, P part → Q part) :
    Loads Q emission := by
  intro instr hinstr hslot
  obtain ⟨part, hpart, hload⟩ := h instr hinstr hslot
  exact ⟨part, hPQ part hpart, hload⟩

theorem Loads.pure : Loads P (Pure.pure ()) := fun _ h => absurd h List.not_mem_nil

theorem Loads.of_fail {e : InteropError} : Loads P (Logged.fail e) :=
  fun _ h => absurd h List.not_mem_nil

theorem Loads.load {part : Part} {instr : Instr} (h : P part) (hload : part.load? = some instr) :
    Loads P (emit instr) := by
  intro found hfound _
  obtain rfl : found = instr := List.mem_singleton.mp hfound
  exact ⟨part, h, hload⟩

/-- An instruction that loads no local variable. -/
theorem Loads.emit {instr : Instr} (h : instr.slot? = none) : Loads P (emit instr) := by
  intro found hfound hslot
  obtain rfl : found = instr := List.mem_singleton.mp hfound
  rw [h] at hslot
  cases hslot

theorem Loads.bind {first rest : Emission} (hfirst : Loads P first) (hrest : Loads P rest) :
    Loads P (do first; rest) := by
  rcases first with ⟨log, _ | _⟩
  · exact hfirst
  · intro instr hinstr
    rcases List.mem_append.mp hinstr with hinstr | hinstr
    · exact hfirst instr hinstr
    · exact hrest instr hinstr

theorem loads_convertTo (type : HostType) (overflow : OverflowMode) :
    Loads P (convertTo type overflow) := by
  unfold convertTo
  cases UnboxPlan.ofType type overflow with
  | error e => exact .of_fail
  | ok plan =>
    cases plan with
    | identity => exact .pure
    | routine | unboxValue | downcast => exact .emit rfl

theorem loads_convertTarget (known : Option HostType) (declaring : HostType) :
    Loads P (convertTarget known declaring) := by
  unfold convertTarget
  split
  · exact loads_convertTo declaring .checked
  · exact .pure

theorem loads_read {instr : Instr} (type : HostType) (h : instr.slot? = none) :
    Loads P (do emit instr; boxResult type) := by
  refine .bind (.emit h) ?_
  unfold boxResult
  cases BoxAction.ofType type with
  | passThrough => exact .pure
  | box | nullMarker => exact .emit rfl

/-- A store through what has been reached. -/
theorem loads_write {value : Emission} {instr : Instr} (type : HostType) (overflow : OverflowMode)
    (hvalue : Loads P value) (h : instr.slot? = none) :
    Loads P (do value; convertTo type overflow; emit instr; boxResult type) :=
  .bind hvalue (.bind (loads_convertTo type overflow) (loads_read type h))

end Emission

section

open Emission

variable {P : Part → Prop}

theorem loads_emitArgs {args : List (Argument Expr)} (params : List HostType)
    (overflow : OverflowMode) (hvalues : ∀ arg ∈ args, arg.value.emit.Loads P)
    (hbyRef : ∀ arg ∈ args, ∀ binding, arg.byRef = some binding → P (.byRef binding)) :
    (emitArgs params overflow args).Loads P := by
  induction args generalizing params with
  | nil => exact .pure
  | cons arg args ih =>
    have hrest := ih params.tail (fun other hother => hvalues other (List.mem_cons_of_mem _ hother))
      fun other hother => hbyRef other (List.mem_cons_of_mem _ hother)
    have hvalue := hvalues arg List.mem_cons_self
    have hpassed := hbyRef arg List.mem_cons_self
    rcases arg with ⟨value, _ | binding⟩
    · refine .bind ?_ hrest
      cases params.head? with
      | none => exact .bind hvalue .pure
      | some type => exact .bind hvalue (loads_convertTo type overflow)
    · exact .bind (.load (hpassed binding rfl) rfl) hrest

/-- What the code of a node loads: what its operands load, and what is passed by reference. -/
structure LoadsOperands (P : Part → Prop) (node : Access Expr) : Prop where
  operand : ∀ operand ∈ node.operands, operand.emit.Loads P
  byRef : ∀ binding, node.Passes binding → P (.byRef binding)

namespace LoadsOperands

variable {node : Access Expr}

theorem mono {Q : Part → Prop} (h : LoadsOperands P node) (hPQ : ∀ part, P part → Q part) :
    LoadsOperands Q node where
  operand := fun operand hoperand => (h.operand operand hoperand).mono hPQ
  byRef := fun binding hpasses => hPQ _ (h.byRef binding hpasses)

theorem target (h : LoadsOperands P node) {target : Expr} (htarget : node.target? = some target) :
    target.emit.Loads P :=
  h.operand target (mem_operands_of_target? htarget)

theorem call (h : LoadsOperands P node) {call : Call Expr} (hcall : node.call? = some call) :
    (emitCall call).Loads P := by
  have hargs := loads_emitArgs ((call.method.map Method.params).getD []) call.overflow
    (fun arg harg => h.operand arg.value (mem_operands_of_arg hcall harg))
    fun arg harg binding hbyRef => h.byRef binding ⟨call, hcall, arg, harg, hbyRef⟩
  cases call
  exact hargs

theorem access (h : LoadsOperands P node) : (emitAccess node).Loads P := by
  cases node with
  | staticField type field site => exact loads_read field.type rfl
  | staticProperty type property site => exact loads_read property.type rfl
  | staticMethod type call site =>
    refine .bind (h.call rfl) ?_
    dsimp only
    cases call.method with
    | none => exact .emit rfl
    | some method => exact loads_read method.returns rfl
  | instanceField target name field site =>
    cases field with
    | none => exact .bind (h.target rfl) (.emit rfl)
    | some field =>
      exact .bind (h.target rfl) (.bind (loads_convertTarget _ _) (loads_read field.type rfl))
  | instanceProperty target property site =>
    exact .bind (h.target rfl) (.bind (loads_convertTarget _ _) (loads_read property.type rfl))
  | instanceMethod target call site =>
    refine .bind (h.target rfl) ?_
    dsimp only
    cases call.method with
    | none => exact .bind (h.call rfl) (.emit rfl)
    | some method =>
      exact .bind (loads_convertTarget _ _) (.bind (h.call rfl) (loads_read method.returns rfl))
  | dynamicMember target name site => exact .bind (h.target rfl) (.emit rfl)

theorem store (h : LoadsOperands P node) {value : Emission} (hvalue : value.Loads P)
    (overflow : OverflowMode) : (emitStore node value overflow).Loads P := by
  unfold emitStore
  split
  · exact .of_fail
  · cases node with
    | staticField type field site => exact loads_write field.type overflow hvalue rfl
    | staticProperty type property site => exact loads_write property.type overflow hvalue rfl
    | instanceField target name field site =>
      cases field with
      | none => exact .bind (h.target rfl) (.bind hvalue (.emit rfl))
      | some field =>
        exact .bind (h.target rfl) (.bind (loads_convertTarget _ _)
          (loads_write field.type overflow hvalue rfl))
    | instanceProperty target property site =>
      exact .bind (h.target rfl) (.bind (loads_convertTarget _ _)
        (loads_write property.type overflow hvalue rfl))
    | staticMethod | instanceMethod | dynamicMember => exact .of_fail

end LoadsOperands

end

/-- The code of an expression loads only local variables that the expression uses. -/
theorem Built.loads {host : Host} {expr : Expr} (h : Built host expr) :
    expr.emit.Loads (· ∈ expr.parts) := by
  have hinner (node : Access Expr) (ih : ∀ operand ∈ node.operands,
      operand.emit.Loads (· ∈ operand.parts)) : LoadsOperands (· ∈ innerParts node) node :=
    { operand := fun operand hoperand => (ih operand hoperand).mono
        fun _ hpart => mem_innerParts.mpr (.inl ⟨operand, hoperand, hpart⟩)
      byRef := fun binding hpasses => mem_innerParts.mpr (.inr ⟨binding, hpasses, rfl⟩) }
  induction h with
  | constant | global | typeRef => exact .emit rfl
  | localVar binding => exact .load (List.mem_singleton.mpr rfl) rfl
  | @access node _ _ ih =>
    exact ((hinner node ih).mono fun _ hpart => List.mem_cons_of_mem _ hpart).access
  | @assign node value overflow site _ _ _ _ ih ihvalue =>
    have hnode := (hinner node ih).mono fun part hpart =>
      show part ∈ (Expr.assign node value overflow site).parts from
        List.mem_cons_of_mem _ (List.mem_append_left _ hpart)
    have hvalue := ihvalue.mono fun part hpart =>
      show part ∈ (Expr.assign node value overflow site).parts from
        List.mem_cons_of_mem _ (List.mem_append_right _ hpart)
    exact hnode.store hvalue overflow

/-- An unqualified symbol of the name is written in the form. -/
def Form.Mentions (form : Form) (name : String) : Prop :=
  ∃ span, (Form.leaf (.symbol { name }) span).Inside form

theorem Context.BindsIn.innermost {context : Context} {form : Form} {binding : LocalBinding}
    {binds : List (String × Option HostType)} (h : context.BindsIn form binding)
    (hlocals : context.locals = .after binds) :
    LexicalEnv.Innermost binds binding ∧ form.Mentions binding.name := by
  obtain ⟨source, hsource, symbol, hsymbol, hlookup⟩ := h
  rw [hlocals] at hlookup
  refine ⟨LexicalEnv.lookup?_after hlookup, ?_⟩
  rw [LexicalEnv.lookup?_symbol hlookup] at hsymbol
  cases source with
  | group => cases hsymbol
  | leaf datum span =>
    cases datum <;> cases hsymbol
    exact ⟨span, hsource⟩

/-- **Local variables are the innermost ones.** In an expression that was analyzed after any bindings,
every local variable, as a value or passed by reference, is the entry at its own index and the last
binding of its name, and the name is written in the form. What is passed by reference has that local
variable as its value. So each slot that the code loads, even code that fails, is one of the bindings'
and stands for the innermost binding of a name in the form. -/
theorem locals_innermost {context : Context} {form : Form} {expr : Expr}
    {binds : List (String × Option HostType)} (hlocals : context.locals = .after binds)
    (h : (analyze context form).result = .ok expr) :
    (∀ binding, .localVar binding ∈ expr.parts ∨ .byRef binding ∈ expr.parts →
        LexicalEnv.Innermost binds binding ∧ form.Mentions binding.name) ∧
      (∀ node call arg binding, .access node ∈ expr.parts → node.call? = some call →
        arg ∈ call.args → arg.byRef = some binding → arg.value = .localVar binding) ∧
      ∀ instr ∈ expr.emit.log, ∀ slot, instr.slot? = some slot →
        slot < binds.length ∧ ∃ binding : LocalBinding, binding.index = slot ∧
          LexicalEnv.Innermost binds binding ∧ form.Mentions binding.name := by
  have hused : ∀ binding, .localVar binding ∈ expr.parts ∨ .byRef binding ∈ expr.parts →
      LexicalEnv.Innermost binds binding ∧ form.Mentions binding.name :=
    fun binding hpart => (analyze_bindsIn h hpart).innermost hlocals
  refine ⟨hused, ?_, ?_⟩
  · intro node call arg binding hnode hcall harg hbyRef
    obtain ⟨source, _, hwrites⟩ := analyze_gives h _ hnode
    exact (hwrites.byRef hcall harg hbyRef).1
  · intro instr hinstr slot hslot
    have hbuilt := analyze_builds context form expr h
    obtain ⟨part, hpart, hload⟩ := hbuilt.loads instr hinstr (by rw [hslot]; rfl)
    have hloaded (binding : LocalBinding) (hindex : some binding.index = some slot)
        (hpart : .localVar binding ∈ expr.parts ∨ .byRef binding ∈ expr.parts) :
        slot < binds.length ∧ ∃ binding : LocalBinding, binding.index = slot ∧
          LexicalEnv.Innermost binds binding ∧ form.Mentions binding.name := by
      have hinnermost := hused binding hpart
      have hindex : binding.index = slot := Option.some.inj hindex
      exact ⟨hindex ▸ hinnermost.1.index_lt, binding, hindex, hinnermost⟩
    cases part with
    | access => cases hload
    | localVar binding =>
      obtain rfl := Option.some.inj hload
      exact hloaded binding hslot (.inl hpart)
    | byRef binding =>
      obtain rfl := Option.some.inj hload
      exact hloaded binding hslot (.inr hpart)

/-- The second of two local variables of a name is passed by reference. -/
theorem locals_innermost_shadowed :
    let int32 : HostType := .primitive .int32
    let binds := [("n", none), ("m", none), ("n", some int32)]
    let context := { maxContext with locals := LexicalEnv.after binds }
    let n : LocalBinding := { name := "n", index := 2, tag := some int32 }
    ∃ expr, (analyze context maxForm).result = .ok expr ∧ .byRef n ∈ expr.parts ∧
      Instr.loadLocalAddress 2 ∈ expr.emit.log ∧
      LexicalEnv.Innermost binds n ∧ maxForm.Mentions "n" := by
  intro int32 binds context n
  have hruns : ∃ expr, (analyze context maxForm).result = .ok expr ∧ .byRef n ∈ expr.parts ∧
      Instr.loadLocalAddress 2 ∈ expr.emit.log := by
    refine ⟨_, rfl, ?_, ?_⟩
    · exact List.mem_cons_of_mem _ List.mem_cons_self
    · decide
  obtain ⟨expr, hexpr, hpart, hload⟩ := hruns
  have hlocals := locals_innermost rfl hexpr
  exact ⟨expr, hexpr, hpart, hload, hlocals.1 n (.inr hpart)⟩

end Interop
