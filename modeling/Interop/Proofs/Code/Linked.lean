import Interop.Code.Emission
import Interop.Proofs.Logged

/-! Code before its names. A linked instruction has the types and members themselves where an
instruction has their names, and knows whether a conversion is that of a receiver. Code is linked
code with the names read off, so what linked code does is what code does. -/

namespace Interop

/-- A conversion that does something. -/
inductive Conversion where
  | routine (routine : CastRoutine)
  | unboxValue (type : HostType)
  | castClass (type : HostType)
deriving DecidableEq, Repr

def UnboxPlan.conversion? : UnboxPlan → Option Conversion
  | .routine cast => some (.routine cast)
  | .unboxValue type => some (.unboxValue type)
  | .downcast type => some (.castClass type)
  | .identity => none

/-- A call without the values of its arguments. -/
def Call.signature (call : Call Expr) : Call Unit where
  name := call.name
  typeArgs := call.typeArgs
  args := call.args.map fun arg => { value := (), byRef := arg.byRef }
  method := call.method
  overflow := call.overflow

/-- A member with an owner is a static one, reached through that type. -/
inductive Linked where
  | loadConst (literal : Literal)
  | loadLocal (index : Nat)
  | loadLocalAddress (index : Nat)
  | loadGlobal (name : String)
  | loadType (type : HostType)
  | loadNull
  | convert (ofReceiver : Bool) (conversion : Conversion)
  | box (type : HostType)
  | getField (owner : Option HostType) (field : Field)
  | setField (owner : Option HostType) (field : Field)
  | getProperty (owner : Option HostType) (property : Property)
  | setProperty (owner : Option HostType) (property : Property)
  | call (owner : Option HostType) (call : Call Unit)
  | getMember (name : String)
  | setMember (name : String)

/-! ## Names -/

def Conversion.instr : Conversion → Instr
  | .routine cast => .convert cast
  | .unboxValue type => .unboxValue type.name
  | .castClass type => .castClass type.name

namespace Linked

/-- How a member is referred to: by its owner, or by the type that declares it. -/
def ref (owner : Option HostType) (declaring : HostType) (member : String) : MemberRef :=
  memberOf (owner.getD declaring) member

def instr : Linked → Instr
  | .loadConst literal => .loadConst literal
  | .loadLocal index => .loadLocal index
  | .loadLocalAddress index => .loadLocalAddress index
  | .loadGlobal name => .loadGlobal name
  | .loadType type => .loadType type.name
  | .loadNull => .loadNull
  | .convert _ conversion => conversion.instr
  | .box type => .box type.name
  | .getField owner field => .loadField owner.isSome (ref owner field.declaring field.name)
  | .setField owner field => .storeField owner.isSome (ref owner field.declaring field.name)
  | .getProperty owner property =>
    .getProperty owner.isSome (ref owner property.declaring property.name)
  | .setProperty owner property =>
    .setProperty owner.isSome (ref owner property.declaring property.name)
  | .call owner signature =>
    let typeArgs := signature.typeArgList.map HostType.name
    match signature.method with
    | some method =>
      .call owner.isSome (ref owner method.declaring signature.name) signature.arity typeArgs
    | none =>
      .invokeReflective (owner.map HostType.name) signature.name signature.arity typeArgs
  | .getMember name => .getMember name
  | .setMember name => .setMember name

end Linked

/-! ## Linked emission -/

abbrev Linking := Logged Linked InteropError Unit

namespace Linking

def emit (linked : Linked) : Linking := Logged.note linked

def unbox (ofReceiver : Bool) (plan : UnboxPlan) : Linking :=
  match plan.conversion? with
  | some conversion => emit (.convert ofReceiver conversion)
  | none => pure ()

def convertTo (ofReceiver : Bool) (type : HostType) (overflow : OverflowMode) : Linking := do
  unbox ofReceiver (← Logged.ofExcept (UnboxPlan.ofType type overflow))

def boxResult (type : HostType) : Linking :=
  match BoxAction.ofType type with
  | .box type => emit (.box type)
  | .nullMarker => emit .loadNull
  | .passThrough => pure ()

def convertTarget (known : Option HostType) (declaring : HostType) : Linking :=
  if declaring.isValueType ∨ known ≠ some declaring then convertTo true declaring .checked
  else pure ()

end Linking

open Linking

mutual

def Expr.link : Expr → Linking
  | .constant literal => Linking.emit (.loadConst literal)
  | .localVar binding => Linking.emit (.loadLocal binding.index)
  | .global name => Linking.emit (.loadGlobal name)
  | .typeRef type => Linking.emit (.loadType type)
  | .access node => linkAccess node
  | .assign target value overflow _ => linkStore target value.link overflow

def linkAccess : Access Expr → Linking
  | .staticField type field _ => do
    Linking.emit (.getField (some type) field)
    boxResult field.type
  | .staticProperty type property _ => do
    Linking.emit (.getProperty (some type) property)
    boxResult property.type
  | .staticMethod type call _ => do
    linkCall call
    Linking.emit (.call (some type) call.signature)
    call.method.forM fun method => boxResult method.returns
  | .instanceField target _ (some field) _ => do
    target.link
    convertTarget target.type? field.declaring
    Linking.emit (.getField none field)
    boxResult field.type
  | .instanceField target name none _ => do
    target.link
    Linking.emit (.getMember name)
  | .instanceProperty target property _ => do
    target.link
    convertTarget target.type? property.declaring
    Linking.emit (.getProperty none property)
    boxResult property.type
  | .instanceMethod target call _ => do
    target.link
    call.method.forM fun method => convertTarget target.type? method.declaring
    linkCall call
    Linking.emit (.call none call.signature)
    call.method.forM fun method => boxResult method.returns
  | .dynamicMember target name _ => do
    target.link
    Linking.emit (.getMember name)

def linkStore (node : Access Expr) (value : Linking) (overflow : OverflowMode) : Linking :=
  if !node.isAssignable then Logged.fail (node.invalidTarget node.site.span)
  else match node with
    | .staticField type field _ => do
      value
      convertTo false field.type overflow
      Linking.emit (.setField (some type) field)
      boxResult field.type
    | .staticProperty type property _ => do
      value
      convertTo false property.type overflow
      Linking.emit (.setProperty (some type) property)
      boxResult property.type
    | .instanceField target _ (some field) _ => do
      target.link
      convertTarget target.type? field.declaring
      value
      convertTo false field.type overflow
      Linking.emit (.setField none field)
      boxResult field.type
    | .instanceField target name none _ => do
      target.link
      value
      Linking.emit (.setMember name)
    | .instanceProperty target property _ => do
      target.link
      convertTarget target.type? property.declaring
      value
      convertTo false property.type overflow
      Linking.emit (.setProperty none property)
      boxResult property.type
    | .staticMethod .. | .instanceMethod .. | .dynamicMember .. =>
      Logged.fail (node.invalidTarget node.site.span)

def linkCall : Call Expr → Linking
  | { args, method, overflow, .. } => linkArgs ((method.map Method.params).getD []) overflow args

def linkArgs (params : List HostType) (overflow : OverflowMode) : List (Argument Expr) → Linking
  | [] => pure ()
  | arg :: args => do
    linkArgument params.head? overflow arg
    linkArgs params.tail overflow args

def linkArgument (param : Option HostType) (overflow : OverflowMode) : Argument Expr → Linking
  | { byRef := some binding, .. } => Linking.emit (.loadLocalAddress binding.index)
  | { value, byRef := none } => do
    value.link
    match param with
    | some type => convertTo false type overflow
    | none => pure ()

end

/-- The instructions of an expression before their names. -/
def Expr.linked (expr : Expr) : List Linked := expr.link.log

/-! ## Code is linked code -/

namespace Linking

@[simp] theorem mapLog_emit (linked : Linked) :
    (emit linked).mapLog Linked.instr = Emission.emit linked.instr := rfl

@[simp] theorem mapLog_unbox (ofReceiver : Bool) (plan : UnboxPlan) :
    (unbox ofReceiver plan).mapLog Linked.instr = Emission.unbox plan := by
  cases plan <;> rfl

@[simp] theorem mapLog_convertTo (ofReceiver : Bool) (type : HostType) (overflow : OverflowMode) :
    (convertTo ofReceiver type overflow).mapLog Linked.instr
      = Emission.convertTo type overflow := by
  simp [convertTo, Emission.convertTo]

@[simp] theorem mapLog_boxResult (type : HostType) :
    (boxResult type).mapLog Linked.instr = Emission.boxResult type := by
  unfold boxResult Emission.boxResult
  cases BoxAction.ofType type <;> rfl

@[simp] theorem mapLog_convertTarget (known : Option HostType) (declaring : HostType) :
    (convertTarget known declaring).mapLog Linked.instr
      = Emission.convertTarget known declaring := by
  unfold convertTarget Emission.convertTarget
  split
  · exact mapLog_convertTo true declaring .checked
  · rfl

@[simp] theorem mapLog_forM {α : Type} (choice : Option α) (f : α → Linking) :
    (choice.forM f).mapLog Linked.instr
      = choice.forM fun a => (f a).mapLog Linked.instr := by
  cases choice <;> rfl

end Linking

@[simp] theorem Call.signature_arity (call : Call Expr) : call.signature.arity = call.arity := by
  simp [Call.signature, Call.arity]

/-- The instruction of a call is emitted in the same way whatever its arguments are. -/
theorem Linked.instr_call (owner : Option HostType) (call : Call Expr) :
    (Linked.call owner call.signature).instr = match call.method with
      | some method => .call owner.isSome (ref owner method.declaring call.name) call.arity
          (call.typeArgList.map HostType.name)
      | none => .invokeReflective (owner.map HostType.name) call.name call.arity
          (call.typeArgList.map HostType.name) := by
  simp only [instr, Call.signature_arity]
  rfl

mutual

theorem Expr.mapLog_link : (expr : Expr) → expr.link.mapLog Linked.instr = expr.emit
  | .constant _ | .localVar _ | .global _ | .typeRef _ => rfl
  | .access node => mapLog_linkAccess node
  | .assign target value overflow _ => mapLog_linkStore target value.mapLog_link overflow

theorem mapLog_linkAccess :
    (node : Access Expr) → (linkAccess node).mapLog Linked.instr = emitAccess node
  | .staticField .. | .staticProperty .. => by
    simp only [linkAccess, emitAccess, Logged.mapLog_bind, Linking.mapLog_emit,
      Linking.mapLog_boxResult]
    rfl
  | .staticMethod type call _ => by
    simp only [linkAccess, emitAccess, Logged.mapLog_bind, Linking.mapLog_emit,
      Linking.mapLog_forM, Linking.mapLog_boxResult, mapLog_linkCall call, Linked.instr_call]
    cases call.method with
    | some method => rfl
    | none => simp [Option.forM]
  | .instanceField target _ none _ | .dynamicMember target _ _ => by
    simp only [linkAccess, emitAccess, Logged.mapLog_bind, Linking.mapLog_emit,
      target.mapLog_link]
    rfl
  | .instanceField target _ (some _) _ | .instanceProperty target _ _ => by
    simp only [linkAccess, emitAccess, Logged.mapLog_bind, Linking.mapLog_emit,
      Linking.mapLog_convertTarget, Linking.mapLog_boxResult, target.mapLog_link]
    rfl
  | .instanceMethod target call _ => by
    simp only [linkAccess, emitAccess, Logged.mapLog_bind, Linking.mapLog_emit,
      Linking.mapLog_forM, Linking.mapLog_convertTarget, Linking.mapLog_boxResult,
      target.mapLog_link, mapLog_linkCall call, Linked.instr_call]
    cases call.method with
    | some method => rfl
    | none => simp [Option.forM]

theorem mapLog_linkStore : (node : Access Expr) → {value : Linking} → {emitted : Emission} →
    value.mapLog Linked.instr = emitted → (overflow : OverflowMode) →
    (linkStore node value overflow).mapLog Linked.instr = emitStore node emitted overflow
  | .staticField .., _, _, hvalue, _ | .staticProperty .., _, _, hvalue, _ => by
    simp only [linkStore, emitStore]
    split
    · rfl
    · simp only [Logged.mapLog_bind, Linking.mapLog_emit, Linking.mapLog_convertTo,
        Linking.mapLog_boxResult, hvalue]
      rfl
  | .instanceField target _ none _, _, _, hvalue, _ => by
    simp only [linkStore, emitStore]
    split
    · rfl
    · simp only [Logged.mapLog_bind, Linking.mapLog_emit, target.mapLog_link, hvalue]
      rfl
  | .instanceField target _ (some _) _, _, _, hvalue, _
  | .instanceProperty target _ _, _, _, hvalue, _ => by
    simp only [linkStore, emitStore]
    split
    · rfl
    · simp only [Logged.mapLog_bind, Linking.mapLog_emit, Linking.mapLog_convertTo,
        Linking.mapLog_convertTarget, Linking.mapLog_boxResult, target.mapLog_link, hvalue]
      rfl
  | .staticMethod .., _, _, _, _ | .instanceMethod .., _, _, _, _ | .dynamicMember .., _, _, _, _ =>
    rfl

theorem mapLog_linkCall : (call : Call Expr) → (linkCall call).mapLog Linked.instr = emitCall call
  | { args, .. } => mapLog_linkArgs _ _ args

theorem mapLog_linkArgs (params : List HostType) (overflow : OverflowMode) :
    (args : List (Argument Expr)) →
    (linkArgs params overflow args).mapLog Linked.instr = emitArgs params overflow args
  | [] => rfl
  | arg :: args => by
    simp only [linkArgs, emitArgs, Logged.mapLog_bind, mapLog_linkArgument _ _ arg,
      mapLog_linkArgs _ _ args]

theorem mapLog_linkArgument (param : Option HostType) (overflow : OverflowMode) :
    (arg : Argument Expr) →
    (linkArgument param overflow arg).mapLog Linked.instr = emitArgument param overflow arg
  | { byRef := some _, .. } => rfl
  | { value, byRef := none } => by
    simp only [linkArgument, emitArgument, Logged.mapLog_bind, value.mapLog_link]
    cases param with
    | some type => simp only [Linking.mapLog_convertTo]
    | none => rfl

end

theorem Expr.code_eq (expr : Expr) :
    expr.code = expr.link.result.map fun _ => expr.linked.map Linked.instr := by
  have hemit : expr.emit = expr.link.mapLog Linked.instr := expr.mapLog_link.symm
  rw [Expr.code, hemit]
  rfl

/-- The code of an expression is its linked code with the names read off. -/
theorem Expr.code_eq_linked {expr : Expr} {code : List Instr} (h : expr.code = .ok code) :
    expr.link = { log := expr.linked, result := .ok () } ∧
      code = expr.linked.map Linked.instr := by
  rw [expr.code_eq] at h
  cases hresult : expr.link.result with
  | error e =>
    rw [hresult] at h
    cases h
  | ok =>
    rw [hresult] at h
    have hcode : expr.linked.map Linked.instr = code := Except.ok.inj h
    refine ⟨?_, hcode.symm⟩
    rw [← hresult]
    rfl

end Interop
