import Interop.Code.Emission
import Interop.Proofs.Analysis.Built
import Interop.Proofs.Catalog.Reference
import Interop.Proofs.Except

/-! References in code. An instruction that reaches an instance member has the names of the member
and of the type that declares it. Looked up by these names in the catalog, the member is the one
that analysis bound, for every such instruction of the code, in order. -/

namespace Interop

/-- How an instruction refers to an instance member, if it does. -/
def Instr.instanceRef? : Instr → Option InstanceRef
  | .loadField false ref | .storeField false ref =>
    some { type := ref.type, member := .field ref.member }
  | .getProperty false ref | .setProperty false ref =>
    some { type := ref.type, member := .property ref.member }
  | .call false ref arity _ => some { type := ref.type, member := .method ref.member arity }
  | _ => none

/-- The instance member that a node is bound to, if it is. -/
def Access.instanceMember? : Access Expr → Option Member
  | .instanceField _ _ field _ => field.map .field
  | .instanceProperty _ property _ => some (.property property)
  | .instanceMethod _ call _ => call.method.map .method
  | _ => none

/-- How the instruction of a node refers to the instance member of the node. -/
def Access.instanceRef? : Access Expr → Option InstanceRef
  | .instanceField _ _ field _ => field.map fun field =>
    { type := field.declaring.name, member := .field field.name }
  | .instanceProperty _ property _ =>
    some { type := property.declaring.name, member := .property property.name }
  | .instanceMethod _ call _ => call.method.map fun method =>
    { type := method.declaring.name, member := .method call.name call.arity }
  | _ => none

mutual

/-- The instance members that an expression is bound to, in the order in which its code reaches
them: a member that is stored to is reached after what is stored. -/
def Expr.instanceMembers : Expr → List Member
  | .constant _ | .localVar _ | .global _ | .typeRef _ => []
  | .access node => operandMembers node ++ node.instanceMember?.toList
  | .assign node value _ _ =>
    operandMembers node ++ (value.instanceMembers ++ node.instanceMember?.toList)

/-- Those of the target and of the arguments of a node. -/
def operandMembers : Access Expr → List Member
  | .staticField .. | .staticProperty .. => []
  | .staticMethod _ call _ => call.instanceMembers
  | .instanceField target _ _ _ | .instanceProperty target _ _ | .dynamicMember target _ _ =>
    target.instanceMembers
  | .instanceMethod target call _ => target.instanceMembers ++ call.instanceMembers

def Call.instanceMembers : Call Expr → List Member
  | { args, .. } => argsMembers args

def argsMembers : List (Argument Expr) → List Member
  | [] => []
  | arg :: args => arg.instanceMembers ++ argsMembers args

/-- A local variable that is passed by reference reaches no member. -/
def Argument.instanceMembers : Argument Expr → List Member
  | { byRef := some _, .. } => []
  | { value, byRef := none } => value.instanceMembers

end

/-! ## Emission -/

namespace Emission

/-- Code whose references to instance members lead to these, one after the other. -/
def Refers (C : Catalog) (emission : Emission) (members : List Member) : Prop :=
  emission.result = .ok () →
    List.Forall₂ C.Identifies (emission.log.filterMap Instr.instanceRef?) members

variable {C : Catalog} {first rest : Emission} {members more : List Member}

theorem Refers.pure : Refers C (Pure.pure ()) [] := fun _ => .nil

theorem Refers.of_fail {e : InteropError} : Refers C (Logged.fail e) members := nofun

theorem Refers.emit {instr : Instr}
    (h : List.Forall₂ C.Identifies instr.instanceRef?.toList members) :
    Refers C (emit instr) members := by
  intro _
  have hlog : (Emission.emit instr).log.filterMap Instr.instanceRef? =
      instr.instanceRef?.toList := by
    show [instr].filterMap Instr.instanceRef? = _
    cases hinstr : instr.instanceRef? <;> simp [hinstr]
  rwa [hlog]

theorem Refers.bind (hfirst : Refers C first members) (hrest : Refers C rest more) :
    Refers C (do first; rest) (members ++ more) := by
  intro hok
  rcases first with ⟨log, _ | _⟩
  · cases hok
  · have hlog : (Logged.mk log (.ok ()) >>= fun _ => rest : Emission).log = log ++ rest.log := rfl
    rw [hlog, List.filterMap_append]
    exact List.rel_append (hfirst rfl) (hrest hok)

/-- What comes after the last reference. -/
theorem Refers.seal (hfirst : Refers C first members) (hrest : Refers C rest []) :
    Refers C (do first; rest) members := by
  have hboth := hfirst.bind hrest
  rwa [List.append_nil] at hboth

/-- What comes before the first reference. -/
theorem Refers.after (hrest : Refers C rest members) (hfirst : Refers C first []) :
    Refers C (do first; rest) members :=
  hfirst.bind hrest

theorem refers_convertTo (type : HostType) (overflow : OverflowMode) :
    Refers C (convertTo type overflow) [] := by
  unfold convertTo
  cases UnboxPlan.ofType type overflow with
  | error e => exact .of_fail
  | ok plan => cases plan <;> exact fun _ => .nil

theorem refers_convertTarget (known : Option HostType) (declaring : HostType) :
    Refers C (convertTarget known declaring) [] := by
  unfold convertTarget
  split
  · exact refers_convertTo declaring .checked
  · exact .pure

theorem refers_boxResult (type : HostType) : Refers C (boxResult type) [] := by
  unfold boxResult
  cases BoxAction.ofType type <;> exact fun _ => .nil

theorem refers_read (type : HostType) {instr : Instr}
    (h : List.Forall₂ C.Identifies instr.instanceRef?.toList members) :
    Refers C (do emit instr; boxResult type) members :=
  (Refers.emit h).seal (refers_boxResult type)

/-- A store through what has been reached. -/
theorem refers_write (type : HostType) (overflow : OverflowMode) {value : Emission} {instr : Instr}
    (hvalue : Refers C value members)
    (h : List.Forall₂ C.Identifies instr.instanceRef?.toList more) :
    Refers C (do value; convertTo type overflow; emit instr; boxResult type) (members ++ more) :=
  hvalue.bind ((refers_read type h).after (refers_convertTo type overflow))

end Emission

section

open Emission

variable {C : Catalog}

/-- The code of an expression refers to the instance members that the expression is bound to. -/
def Expr.Refers (C : Catalog) (expr : Expr) : Prop := expr.emit.Refers C expr.instanceMembers

theorem refers_emitArgument {param : Option HostType} {overflow : OverflowMode}
    {arg : Argument Expr} (h : arg.value.Refers C) :
    (emitArgument param overflow arg).Refers C arg.instanceMembers := by
  rcases arg with ⟨value, byRef⟩
  cases byRef with
  | some binding => exact .emit .nil
  | none =>
    cases param with
    | none => exact Refers.seal h .pure
    | some type => exact Refers.seal h (refers_convertTo type overflow)

theorem refers_emitArgs {params : List HostType} {overflow : OverflowMode}
    {args : List (Argument Expr)} (h : ∀ arg ∈ args, arg.value.Refers C) :
    (emitArgs params overflow args).Refers C (argsMembers args) := by
  induction args generalizing params with
  | nil => exact .pure
  | cons arg args ih =>
    have hrest := @ih params.tail fun other hother => h other (List.mem_cons_of_mem arg hother)
    exact (refers_emitArgument (h arg List.mem_cons_self)).bind hrest

theorem refers_emitCall {call : Call Expr} (h : ∀ arg ∈ call.args, arg.value.Refers C) :
    (emitCall call).Refers C call.instanceMembers := by
  cases call
  exact refers_emitArgs h

/-- A node refers to the member that it was resolved to. -/
theorem Resolved.identifies {node : Access Expr} (hC : C.Reached) (h : Resolved C.host node) :
    List.Forall₂ C.Identifies node.instanceRef?.toList node.instanceMember?.toList := by
  cases h with
  | staticField | staticProperty | staticNullary | staticCall | deferredField | dynamicMember =>
    exact .nil
  | instanceField _ h => exact .cons (hC.identifies_field h) .nil
  | instanceProperty _ h => exact .cons (hC.identifies_property h) .nil
  | instanceNullary _ h => exact .cons (hC.identifies_method h) .nil
  | @instanceCall target call site h =>
    simp only [Access.instanceRef?, Access.instanceMember?]
    cases hmethod : call.method with
    | none => exact .nil
    | some method =>
      obtain ⟨_, _, hhost, _⟩ := h method hmethod
      exact .cons (hC.identifies_method hhost) .nil

theorem refers_emitAccess {node : Access Expr} (hC : C.Reached) (hnode : Resolved C.host node)
    (h : ∀ operand ∈ node.operands, operand.Refers C) :
    (emitAccess node).Refers C (operandMembers node ++ node.instanceMember?.toList) := by
  have hmember := hnode.identifies hC
  have htarget : ∀ target, node.target? = some target → target.Refers C := by
    intro target heq
    exact h target (mem_operands_of_target? heq)
  have hargs : ∀ call, node.call? = some call → (emitCall call).Refers C call.instanceMembers := by
    intro call heq
    exact refers_emitCall fun arg harg => h arg.value (mem_operands_of_arg heq harg)
  cases node with
  | staticField type field site => exact refers_read field.type .nil
  | staticProperty type property site => exact refers_read property.type .nil
  | staticMethod type call site =>
    have hcall := hargs call rfl
    simp only [emitAccess, operandMembers, Access.instanceMember?]
    cases call.method with
    | none => exact hcall.bind (.emit .nil)
    | some method => exact hcall.bind (refers_read method.returns .nil)
  | instanceField target name field site =>
    cases field with
    | none => exact Refers.bind (htarget target rfl) (.emit .nil)
    | some field =>
      refine Refers.bind (htarget target rfl) ?_
      exact Refers.after (refers_read field.type hmember) (refers_convertTarget _ _)
  | instanceProperty target property site =>
    refine Refers.bind (htarget target rfl) ?_
    exact Refers.after (refers_read property.type hmember) (refers_convertTarget _ _)
  | instanceMethod target call site =>
    have hcall := hargs call rfl
    simp only [Access.instanceRef?, Access.instanceMember?] at hmember
    simp only [emitAccess, operandMembers, Access.instanceMember?, List.append_assoc]
    refine Refers.bind (htarget target rfl) ?_
    cases hmethod : call.method with
    | none => exact hcall.bind (.emit .nil)
    | some method =>
      rw [hmethod] at hmember
      refine Refers.after ?_ (refers_convertTarget target.type? method.declaring)
      exact hcall.bind (refers_read method.returns hmember)
  | dynamicMember target name site => exact Refers.bind (htarget target rfl) (.emit .nil)

theorem refers_emitStore {node : Access Expr} {value : Emission} {members : List Member}
    (hC : C.Reached) (hnode : Resolved C.host node)
    (h : ∀ operand ∈ node.operands, operand.Refers C) (hvalue : value.Refers C members)
    (overflow : OverflowMode) :
    (emitStore node value overflow).Refers C
      (operandMembers node ++ (members ++ node.instanceMember?.toList)) := by
  have hmember := hnode.identifies hC
  have htarget : ∀ target, node.target? = some target → target.Refers C := by
    intro target heq
    exact h target (mem_operands_of_target? heq)
  unfold emitStore
  split
  · exact .of_fail
  · cases node with
    | staticField type field site =>
      show Refers C _ (members ++ [])
      exact refers_write field.type overflow hvalue .nil
    | staticProperty type property site =>
      show Refers C _ (members ++ [])
      exact refers_write property.type overflow hvalue .nil
    | instanceField target name field site =>
      cases field with
      | none => exact Refers.bind (htarget target rfl) (hvalue.bind (.emit .nil))
      | some field =>
        refine Refers.bind (htarget target rfl) (Refers.after ?_ (refers_convertTarget _ _))
        exact refers_write field.type overflow hvalue hmember
    | instanceProperty target property site =>
      refine Refers.bind (htarget target rfl) (Refers.after ?_ (refers_convertTarget _ _))
      exact refers_write property.type overflow hvalue hmember
    | staticMethod | instanceMethod | dynamicMember => exact .of_fail

end

theorem Built.refers {C : Catalog} {expr : Expr} (hC : C.Reached) (h : Built C.host expr) :
    expr.Refers C := by
  induction h with
  | constant literal => exact .emit .nil
  | localVar binding => exact .emit .nil
  | global name => exact .emit .nil
  | typeRef type => exact .emit .nil
  | access hnode _ ih => exact refers_emitAccess hC hnode ih
  | assign hnode _ _ _ ih ihvalue => exact refers_emitStore hC hnode ih ihvalue _

/-! ## Analyzed expressions -/

/-- Code is what a successful emission logs. -/
theorem Expr.emit_of_code {expr : Expr} {code : List Instr} (h : expr.code = .ok code) :
    expr.emit.result = .ok () ∧ expr.emit.log = code := by
  have hcode : expr.emit.result.map (fun _ => expr.emit.log) = .ok code := h
  obtain ⟨_, hresult, hlog⟩ := except_map_eq_ok_iff.mp hcode
  exact ⟨hresult, hlog⟩

/-- **Members are referred to by their own names.** In a catalog that documents were loaded into, a
member that a lookup finds is found again by the same lookup on the type that declares it. So the
instructions for instance members, in the code of an expression that was analyzed over the catalog,
refer by the names in them to exactly the members that the expression is bound to, in order. -/
theorem references_identify {C : Catalog} (hC : C.Reached) :
    (∀ isStatic type name field, C.field? isStatic type name = some field →
        C.field? isStatic field.declaring name = some field) ∧
      (∀ isStatic type name property, C.property? isStatic type name = some property →
        C.property? isStatic property.declaring name = some property) ∧
      (∀ isStatic type name arity method, C.method? isStatic type name arity = some method →
        C.method? isStatic method.declaring name arity = some method) ∧
      ∀ context form expr code, context.host = C.host →
        (analyze context form).result = .ok expr → expr.code = .ok code →
          List.Forall₂ C.Identifies (code.filterMap Instr.instanceRef?) expr.instanceMembers := by
  refine ⟨fun _ _ _ _ h => (hC.field?_again h).2, fun _ _ _ _ h => (hC.property?_again h).2,
    fun _ _ _ _ _ h => (hC.method?_again h).2, ?_⟩
  intro context form expr code hhost hexpr hcode
  have hbuilt := analyze_builds context form expr hexpr
  rw [hhost] at hbuilt
  obtain ⟨hresult, hlog⟩ := Expr.emit_of_code hcode
  rw [← hlog]
  exact hbuilt.refers hC hresult

/-- A field of a base, which hides a field of that name further up. -/
theorem references_identify_hidden :
    let C := ["types = [\x7b name = \"A\", fields = [\x7b name = \"F\", type = \"A\" \x7d] \x7d,
      \x7b name = \"B\", base = \"A\", fields = [\x7b name = \"F\", type = \"B\" \x7d] \x7d,
      \x7b name = \"C\", base = \"B\" \x7d]"].foldl (Catalog.load declarations?) Catalog.empty
    let word (name : String) : Form := .leaf (.symbol { name }) {}
    let context : Context :=
      { host := C.host, names := { name := "user" }, source := "hidden"
        locals := LexicalEnv.bind {} "x" (some (.reference "C")) }
    let form : Form := .group .paren [word ".", word "x", word "F"] {}
    C.Reached ∧ ∃ expr code, (analyze context form).result = .ok expr ∧ expr.code = .ok code ∧
      code = [.loadLocal 0, .castClass "B", .loadField false { type := "B", member := "F" }] ∧
      List.Forall₂ C.Identifies (code.filterMap Instr.instanceRef?) expr.instanceMembers := by
  intro C word context form
  have hreached : C.Reached := ⟨_, _, .inl rfl⟩
  have hruns : (analyze context form).result >>= Expr.code =
      .ok [.loadLocal 0, .castClass "B", .loadField false { type := "B", member := "F" }] := by
    decide +kernel
  obtain ⟨expr, hexpr, hcode⟩ := except_bind_eq_ok_iff.mp hruns
  obtain ⟨-, -, -, hidentify⟩ := references_identify hreached
  exact ⟨hreached, expr, _, hexpr, hcode, rfl, hidentify context form expr _ rfl hexpr hcode⟩

end Interop
