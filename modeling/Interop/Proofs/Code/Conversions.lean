import Interop.Session
import Interop.Proofs.Except
import Interop.Proofs.Analysis.Built
import Interop.Proofs.Catalog.Lookup
import Interop.Proofs.Code.Typing

/-! When code can be emitted. Nothing but a conversion to the type of no value fails once an
expression was analyzed, so the types that an expression converts to decide whether it has code. -/

namespace Interop

/-! ## The types that objects are converted to -/

/-- A target of a known type is converted to the type that declares a member, unless it is a
reference that already is of this type. -/
def targetConversions (known declaring : Option HostType) : List HostType :=
  (declaring.filter fun type => type.isValueType ∨ known ≠ some type).toList

mutual

/-- In the order of the code: targets, arguments by value and stored values. -/
def Expr.conversions : Expr → List HostType
  | .constant _ | .localVar _ | .global _ | .typeRef _ => []
  | .access node => accessConversions node
  | .assign node value _ _ =>
    accessConversions node ++ (value.conversions ++ node.type?.toList)

def accessConversions : Access Expr → List HostType
  | .staticField .. | .staticProperty .. => []
  | .staticMethod _ call _ => call.conversions
  | .instanceField target _ field _ =>
    target.conversions ++ targetConversions target.type? (field.map Field.declaring)
  | .instanceProperty target property _ =>
    target.conversions ++ targetConversions target.type? (some property.declaring)
  | .instanceMethod target call _ =>
    target.conversions ++
      (targetConversions target.type? (call.method.map Method.declaring) ++ call.conversions)
  | .dynamicMember target _ _ => target.conversions

def Call.conversions : Call Expr → List HostType
  | { args, method, .. } => argsConversions ((method.map Method.params).getD []) args

def argsConversions (params : List HostType) : List (Argument Expr) → List HostType
  | [] => []
  | arg :: args => arg.conversions params.head? ++ argsConversions params.tail args

def Argument.conversions (param : Option HostType) : Argument Expr → List HostType
  | { byRef := some _, .. } => []
  | { value, byRef := none } => value.conversions ++ param.toList

end

namespace Emission

/-- Emission that fails exactly if one of the types is that of no value. -/
def Converts (emission : Emission) (types : List HostType) : Prop :=
  emission.result = if .void ∈ types then .error .voidParameter else .ok ()

variable {first rest : Emission} {types more : List HostType}

theorem Converts.emit (instr : Instr) : Converts (emit instr) [] := rfl

theorem Converts.pure : Converts (Pure.pure ()) [] := rfl

theorem Converts.bind (hfirst : Converts first types) (hrest : Converts rest more) :
    Converts (do first; rest) (types ++ more) := by
  unfold Converts at *
  rw [Logged.result_bind, hfirst]
  by_cases hvoid : HostType.void ∈ types
  · simp [hvoid, Except.bind]
  · simp [hvoid, Except.bind, hrest]

/-- What comes after the last conversion cannot fail. -/
theorem Converts.seal (hfirst : Converts first types) (hrest : Converts rest []) :
    Converts (do first; rest) types := by
  have hboth := hfirst.bind hrest
  rwa [List.append_nil] at hboth

theorem converts_convertTo (type : HostType) (overflow : OverflowMode) :
    Converts (convertTo type overflow) [type] := by
  cases type with
  | reference name =>
    show (unbox (if _ then _ else _)).result = _
    split <;> rfl
  | _ => rfl

theorem converts_convertTarget (known : Option HostType) (declaring : HostType) :
    Converts (convertTarget known declaring) (targetConversions known (some declaring)) := by
  unfold convertTarget targetConversions
  by_cases h : declaring.isValueType ∨ known ≠ some declaring
  · rw [if_pos h, Option.filter_some, if_pos (decide_eq_true h)]
    exact converts_convertTo declaring .checked
  · rw [if_neg h, Option.filter_some, if_neg (by simpa using h)]
    exact .pure

theorem converts_boxResult (type : HostType) : Converts (boxResult type) [] := by
  unfold boxResult
  cases BoxAction.ofType type <;> rfl

theorem converts_read (instr : Instr) (type : HostType) :
    Converts (do emit instr; boxResult type) [] :=
  (Converts.emit instr).bind (converts_boxResult type)

/-- A store through what has been reached. -/
theorem converts_write {value : Emission} (hvalue : Converts value types) (type : HostType)
    (overflow : OverflowMode) (instr : Instr) :
    Converts (do value; convertTo type overflow; emit instr; boxResult type)
      (types ++ [type]) :=
  hvalue.bind ((converts_convertTo type overflow).seal (converts_read instr type))

end Emission

section

open Emission

/-- Emission of an expression fails exactly if it converts to the type of no value. -/
def Expr.Emits (expr : Expr) : Prop := expr.emit.Converts expr.conversions

theorem converts_emitArgument {param : Option HostType} {overflow : OverflowMode}
    {arg : Argument Expr} (h : arg.value.Emits) :
    (emitArgument param overflow arg).Converts (arg.conversions param) := by
  rcases arg with ⟨value, byRef⟩
  cases byRef with
  | some binding => exact .emit _
  | none =>
    cases param with
    | none => exact Converts.bind h .pure
    | some type => exact Converts.bind h (converts_convertTo type overflow)

theorem converts_emitArgs {params : List HostType} {overflow : OverflowMode}
    {args : List (Argument Expr)} (h : ∀ arg ∈ args, arg.value.Emits) :
    (emitArgs params overflow args).Converts (argsConversions params args) := by
  induction args generalizing params with
  | nil => exact .pure
  | cons arg args ih =>
    have hrest := @ih params.tail fun other hother => h other (List.mem_cons_of_mem arg hother)
    exact (converts_emitArgument (h arg List.mem_cons_self)).bind hrest

theorem converts_emitCall {call : Call Expr} (h : ∀ arg ∈ call.args, arg.value.Emits) :
    (emitCall call).Converts call.conversions := by
  cases call
  exact converts_emitArgs h

theorem converts_emitAccess {node : Access Expr} (h : ∀ operand ∈ node.operands, operand.Emits) :
    (emitAccess node).Converts (accessConversions node) := by
  have htarget : ∀ target, node.target? = some target → target.Emits := by
    intro target heq
    exact h target (mem_operands_of_target? heq)
  have hargs : ∀ call, node.call? = some call → (emitCall call).Converts call.conversions := by
    intro call heq
    exact converts_emitCall fun arg harg => h arg.value (mem_operands_of_arg heq harg)
  cases node with
  | staticField type field site => exact converts_read _ _
  | staticProperty type property site => exact converts_read _ _
  | staticMethod type call site =>
    have hcall := hargs call rfl
    simp only [emitAccess, accessConversions]
    cases call.method with
    | none => exact hcall.seal (.emit _)
    | some method => exact hcall.seal (converts_read _ method.returns)
  | instanceField target name field site =>
    cases field with
    | none => exact Converts.bind (htarget target rfl) (.emit _)
    | some field =>
      refine Converts.bind (htarget target rfl) ?_
      exact (converts_convertTarget target.type? field.declaring).seal (converts_read _ field.type)
  | instanceProperty target property site =>
    refine Converts.bind (htarget target rfl) ?_
    exact (converts_convertTarget target.type? property.declaring).seal
      (converts_read _ property.type)
  | instanceMethod target call site =>
    have hcall := hargs call rfl
    simp only [emitAccess, accessConversions]
    refine Converts.bind (htarget target rfl) ?_
    cases call.method with
    | none => exact hcall.seal (.emit _)
    | some method =>
      refine (converts_convertTarget target.type? method.declaring).bind ?_
      exact hcall.seal (converts_read _ method.returns)
  | dynamicMember target name site => exact Converts.seal (htarget target rfl) (.emit _)

theorem converts_emitStore {node : Access Expr} {value : Emission} {types : List HostType}
    (hassign : node.isAssignable) (h : ∀ operand ∈ node.operands, operand.Emits)
    (hvalue : value.Converts types) (overflow : OverflowMode) :
    (emitStore node value overflow).Converts
      (accessConversions node ++ (types ++ node.type?.toList)) := by
  have htarget : ∀ target, node.target? = some target → target.Emits := by
    intro target heq
    exact h target (mem_operands_of_target? heq)
  unfold emitStore
  rw [hassign]
  cases node with
  | staticField type field site => exact converts_write hvalue field.type overflow _
  | staticProperty type property site => exact converts_write hvalue property.type overflow _
  | instanceField target name field site =>
    cases field with
    | none =>
      have hreached : accessConversions (.instanceField target name none site) =
          target.conversions := by
        simp [accessConversions, targetConversions]
      rw [hreached]
      exact Converts.bind (htarget target rfl) (hvalue.bind (.emit _))
    | some field =>
      have hwrite := converts_write hvalue field.type overflow
        (.storeField false (memberOf field.declaring field.name))
      have hboth := Converts.bind (htarget target rfl)
        ((converts_convertTarget target.type? field.declaring).bind hwrite)
      rwa [← List.append_assoc] at hboth
  | instanceProperty target property site =>
    have hwrite := converts_write hvalue property.type overflow
      (.setProperty false (memberOf property.declaring property.name))
    have hboth := Converts.bind (htarget target rfl)
      ((converts_convertTarget target.type? property.declaring).bind hwrite)
    rwa [← List.append_assoc] at hboth
  | staticMethod type call site => cases hassign
  | instanceMethod target call site => cases hassign
  | dynamicMember target name site => cases hassign

end

theorem Built.emits {host : Host} {expr : Expr} (h : Built host expr) : expr.Emits := by
  induction h with
  | constant literal => exact .emit _
  | localVar binding => exact .emit _
  | global name => exact .emit _
  | typeRef type => exact .emit _
  | access _ _ ih => exact converts_emitAccess ih
  | assign _ hassign _ _ ih ihvalue => exact converts_emitStore hassign ih ihvalue _

/-! ## Catalogs without the type of no value -/

/-- No field, property or parameter of the catalog is of the type of no value, and no instance
member is declared by it. -/
structure Catalog.Convertible (catalog : Catalog) : Prop where
  voidFree : catalog.VoidFree
  params : ∀ method ∈ catalog.methods, .void ∉ method.params
  fieldOwners : ∀ field ∈ catalog.fields, field.isStatic ∨ field.declaring ≠ .void
  propertyOwners : ∀ property ∈ catalog.properties,
    property.isStatic ∨ property.declaring ≠ .void
  methodOwners : ∀ method ∈ catalog.methods, method.isStatic ∨ method.declaring ≠ .void

theorem void_not_mem_targetConversions {known declaring : Option HostType}
    (h : declaring ≠ some .void) : .void ∉ targetConversions known declaring := by
  intro hvoid
  exact h (Option.filter_eq_some_iff.mp (Option.mem_toList.mp hvoid)).1

theorem void_not_mem_argsConversions {params : List HostType} {args : List (Argument Expr)}
    (hparams : .void ∉ params) (hargs : ∀ arg ∈ args, .void ∉ arg.value.conversions) :
    .void ∉ argsConversions params args := by
  induction args generalizing params with
  | nil => exact List.not_mem_nil
  | cons arg args ih =>
    have hfirst : .void ∉ arg.conversions params.head? := by
      have hvalue := hargs arg List.mem_cons_self
      rcases arg with ⟨value, byRef | binding⟩
      · intro hvoid
        rcases List.mem_append.mp hvoid with hvoid | hvoid
        · exact hvalue hvoid
        · exact hparams (List.mem_of_mem_head? (Option.mem_toList.mp hvoid))
      · exact List.not_mem_nil
    have hrest := @ih params.tail (fun hvoid => hparams (List.mem_of_mem_tail hvoid))
      fun other hother => hargs other (List.mem_cons_of_mem arg hother)
    intro hvoid
    rcases List.mem_append.mp hvoid with hvoid | hvoid
    · exact hfirst hvoid
    · exact hrest hvoid

theorem void_not_mem_callConversions {call : Call Expr}
    (hparams : ∀ method, call.method = some method → .void ∉ method.params)
    (hargs : ∀ arg ∈ call.args, .void ∉ arg.value.conversions) : .void ∉ call.conversions := by
  rcases call with ⟨name, typeArgs, args, method, overflow⟩
  refine void_not_mem_argsConversions ?_ hargs
  cases method with
  | none => exact List.not_mem_nil
  | some method => exact hparams method rfl

theorem void_not_mem_instanceConversions {target : Expr} {declaring : Option HostType}
    (htarget : .void ∉ target.conversions) (hdeclaring : declaring ≠ some .void) :
    .void ∉ target.conversions ++ targetConversions target.type? declaring := by
  rw [List.mem_append, not_or]
  exact ⟨htarget, void_not_mem_targetConversions hdeclaring⟩

theorem void_not_mem_methodConversions {target : Expr} {call : Call Expr}
    (htarget : .void ∉ target.conversions)
    (hargs : ∀ arg ∈ call.args, .void ∉ arg.value.conversions)
    (hmethods : ∀ method, call.method = some method →
      .void ∉ method.params ∧ method.declaring ≠ .void) :
    .void ∉ target.conversions ++
      (targetConversions target.type? (call.method.map Method.declaring) ++
        call.conversions) := by
  have hdeclaring : call.method.map Method.declaring ≠ some .void := by
    intro heq
    obtain ⟨method, hmethod, hvoid⟩ := Option.map_eq_some_iff.mp heq
    exact (hmethods method hmethod).2 hvoid
  have hcall := void_not_mem_callConversions (fun method hcall => (hmethods method hcall).1) hargs
  rw [← List.append_assoc, List.mem_append, not_or]
  exact ⟨void_not_mem_instanceConversions htarget hdeclaring, hcall⟩

section

variable {catalog : Catalog} {node : Access Expr} {isStatic : Bool} {type : HostType}
  {name : String}

theorem Catalog.Convertible.field? (hcatalog : catalog.Convertible) {field : Field}
    (h : catalog.field? isStatic type name = some field) :
    isStatic ∨ field.declaring ≠ .void := by
  obtain ⟨hmem, -, hstatic⟩ := Catalog.field?_eq_some h
  rw [← hstatic]
  exact hcatalog.fieldOwners field hmem

theorem Catalog.Convertible.property? (hcatalog : catalog.Convertible) {property : Property}
    (h : catalog.property? isStatic type name = some property) :
    isStatic ∨ property.declaring ≠ .void := by
  obtain ⟨hmem, -, hstatic⟩ := Catalog.property?_eq_some h
  rw [← hstatic]
  exact hcatalog.propertyOwners property hmem

theorem Catalog.Convertible.method? (hcatalog : catalog.Convertible) {arity : Nat}
    {method : Method} (h : catalog.method? isStatic type name arity = some method) :
    .void ∉ method.params ∧ (isStatic ∨ method.declaring ≠ .void) := by
  obtain ⟨hmem, -, hstatic, -⟩ := Catalog.method?_eq_some h
  have howner := hcatalog.methodOwners method hmem
  rw [hstatic] at howner
  exact ⟨hcatalog.params method hmem, howner⟩

/-- What a node converts to reach its member, and to call it. -/
theorem Resolved.void_not_mem (hcatalog : catalog.Convertible)
    (hnode : Resolved catalog.host node)
    (h : ∀ operand ∈ node.operands, .void ∉ operand.conversions) :
    .void ∉ accessConversions node := by
  have htarget : ∀ target, node.target? = some target → .void ∉ target.conversions := by
    intro target heq
    exact h target (mem_operands_of_target? heq)
  cases hnode with
  | staticField hfield => exact List.not_mem_nil
  | staticProperty hproperty => exact List.not_mem_nil
  | staticNullary hfound =>
    refine void_not_mem_callConversions ?_ nofun
    rintro method ⟨⟩
    exact (hcatalog.method? hfound).1
  | staticCall hfound =>
    refine void_not_mem_callConversions ?_ fun arg harg =>
      h arg.value (mem_operands_of_arg rfl harg)
    intro method hcall
    exact (hcatalog.method? (hfound method hcall).1).1
  | instanceField htype hfield =>
    have hdeclaring := (hcatalog.field? hfield).resolve_left Bool.false_ne_true
    exact void_not_mem_instanceConversions (htarget _ rfl) fun heq =>
      hdeclaring (Option.some.inj heq)
  | deferredField => exact void_not_mem_instanceConversions (htarget _ rfl) nofun
  | instanceProperty htype hproperty =>
    have hdeclaring := (hcatalog.property? hproperty).resolve_left Bool.false_ne_true
    exact void_not_mem_instanceConversions (htarget _ rfl) fun heq =>
      hdeclaring (Option.some.inj heq)
  | instanceNullary htype hfound =>
    refine void_not_mem_methodConversions (htarget _ rfl) nofun ?_
    rintro method ⟨⟩
    obtain ⟨hparams, howner⟩ := hcatalog.method? hfound
    exact ⟨hparams, howner.resolve_left Bool.false_ne_true⟩
  | instanceCall hfound =>
    refine void_not_mem_methodConversions (htarget _ rfl)
      (fun arg harg => h arg.value (mem_operands_of_arg rfl harg)) ?_
    intro method hcall
    obtain ⟨type, -, hhost, -⟩ := hfound method hcall
    obtain ⟨hparams, howner⟩ := hcatalog.method? hhost
    exact ⟨hparams, howner.resolve_left Bool.false_ne_true⟩
  | dynamicMember => exact htarget _ rfl

/-- What can be assigned is not of the type of no value. -/
theorem Resolved.type?_ne_void (hcatalog : catalog.Convertible)
    (hnode : Resolved catalog.host node) (hassign : node.isAssignable) :
    .void ∉ node.type?.toList := by
  obtain ⟨hfields, hproperties⟩ := hcatalog.voidFree
  intro hvoid
  have htype := Option.mem_toList.mp hvoid
  cases hnode with
  | staticField hfield | instanceField _ hfield =>
    exact hfields _ (Catalog.field?_eq_some hfield).1 (Option.some.inj htype)
  | staticProperty hproperty | instanceProperty _ hproperty =>
    exact hproperties _ (Catalog.property?_eq_some hproperty).1 (Option.some.inj htype)
  | deferredField => cases htype
  | _ => cases hassign

theorem Built.void_not_mem {expr : Expr} (hcatalog : catalog.Convertible)
    (h : Built catalog.host expr) : .void ∉ expr.conversions := by
  induction h with
  | constant literal => exact List.not_mem_nil
  | localVar binding => exact List.not_mem_nil
  | global name => exact List.not_mem_nil
  | typeRef type => exact List.not_mem_nil
  | access hnode _ ih => exact hnode.void_not_mem hcatalog ih
  | assign hnode hassign _ _ ih ihvalue =>
    rw [Expr.conversions, List.mem_append, List.mem_append, not_or, not_or]
    exact ⟨hnode.void_not_mem hcatalog ih, ihvalue, hnode.type?_ne_void hcatalog hassign⟩

end

/-! ## Analyzed expressions -/

theorem Expr.Emits.code {expr : Expr} (h : expr.Emits) :
    (∃ code, expr.code = .ok code) ∧ .void ∉ expr.conversions ∨
      expr.code = .error .voidParameter ∧ .void ∈ expr.conversions := by
  unfold Emits Emission.Converts at h
  rw [Expr.code, h]
  by_cases hvoid : HostType.void ∈ expr.conversions
  · rw [if_pos hvoid]
    exact .inr ⟨rfl, hvoid⟩
  · rw [if_neg hvoid]
    exact .inl ⟨⟨expr.emit.log, rfl⟩, hvoid⟩

/-- **When analyzed code is emitted.** An expression that was analyzed over a catalog has code
exactly if it converts nothing to the type of no value, and emission fails in no other way. Over a
catalog without fields, properties, parameters and instance members of that type it has code. -/
theorem code_exists_iff {catalog : Catalog} {context : Context} {form : Form} {expr : Expr}
    (hhost : context.host = catalog.host) (h : (analyze context form).result = .ok expr) :
    ((∃ code, expr.code = .ok code) ↔ .void ∉ expr.conversions) ∧
      (∀ e, expr.code = .error e → e = .voidParameter) ∧
      (catalog.Convertible → ∃ code, expr.code = .ok code) := by
  have hbuilt := analyze_builds context form expr h
  have hcode := hbuilt.emits.code
  rw [hhost] at hbuilt
  have hiff : (∃ code, expr.code = .ok code) ↔ .void ∉ expr.conversions := by
    rcases hcode with ⟨hexists, hvoid⟩ | ⟨herror, hvoid⟩
    · exact iff_of_true hexists hvoid
    · refine iff_of_false ?_ (not_not_intro hvoid)
      rintro ⟨code, hok⟩
      rw [herror] at hok
      cases hok
  refine ⟨hiff, ?_, fun hcatalog => hiff.mpr (hbuilt.void_not_mem hcatalog)⟩
  intro e he
  rcases hcode with ⟨⟨code, hok⟩, -⟩ | ⟨herror, -⟩
  · rw [hok] at he
    cases he
  · rw [herror] at he
    exact (Except.error.inj he).symm

theorem convertible_builtin : Catalog.builtin.Convertible := by
  have hmembers : Catalog.builtin.VoidFree ∧
      (∀ method ∈ Catalog.builtin.methods,
        .void ∉ method.params ∧ (method.isStatic ∨ method.declaring ≠ .void)) ∧
      (∀ field ∈ Catalog.builtin.fields, field.isStatic ∨ field.declaring ≠ .void) ∧
      ∀ property ∈ Catalog.builtin.properties, property.isStatic ∨ property.declaring ≠ .void := by
    unfold Catalog.VoidFree
    decide +kernel
  obtain ⟨hfree, hmethods, hfields, hproperties⟩ := hmembers
  exact ⟨hfree, fun method hmethod => (hmethods method hmethod).1, hfields, hproperties,
    fun method hmethod => (hmethods method hmethod).2⟩

/-- `(. System.Math Max 1 2)` over the built-in declarations. -/
theorem code_exists_iff_max :
    let word (name : String) : Form := .leaf (.symbol { name }) {}
    let form : Form := .group .paren
      [word ".", word "System.Math", word "Max", .leaf (.int 1) {}, .leaf (.int 2) {}] {}
    let context : Context :=
      { host := Catalog.builtin.host, names := { name := "user" }, source := "max" }
    ∃ expr code, (analyze context form).result = .ok expr ∧ expr.code = .ok code := by
  intro word form context
  obtain ⟨expr, hexpr⟩ := except_isOk_iff.mp
    (show (analyze context form).result.isOk by decide +kernel)
  have hhost : context.host = Catalog.builtin.host := rfl
  obtain ⟨code, hcode⟩ := (code_exists_iff hhost hexpr).2.2 convertible_builtin
  exact ⟨expr, code, hexpr, hcode⟩

/-- A document that declares a method with a parameter of the type of no value. -/
def voidParameterText : String :=
  "types = [\x7b name = \"F.X\", methods = [\x7b name = \"Take\", "
    ++ "params = [\"System.Void\"], static = true \x7d] \x7d]"

/-- The document is loaded, and the call analyzed, but no code is emitted. -/
theorem code_void_parameter :
    ∃ catalog expr, Catalog.builtin.extendFromText voidParameterText = .ok catalog ∧
      (Session.ofCatalog {} catalog).analyzeText {} "(. F.X Take 1)" = .ok expr ∧
      expr.code = .error .voidParameter := by
  have hruns : (match Catalog.builtin.extendFromText voidParameterText with
      | .error _ => false
      | .ok catalog =>
        match (Session.ofCatalog {} catalog).analyzeText {} "(. F.X Take 1)" with
        | .error _ => false
        | .ok expr => match expr.code with
          | .error e => decide (e = .voidParameter)
          | .ok _ => false) = true := by
    decide +kernel
  split at hruns
  · cases hruns
  · rename_i catalog hcatalog
    split at hruns
    · cases hruns
    · rename_i expr hexpr
      split at hruns
      · rename_i e hcode
        exact ⟨catalog, expr, hcatalog, hexpr, by rw [hcode, of_decide_eq_true hruns]⟩
      · cases hruns

end Interop
