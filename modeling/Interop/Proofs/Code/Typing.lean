import Interop.Proofs.Analysis.Provided
import Interop.Proofs.Code.Machine
import Mathlib.Data.Option.Basic

/-! Emitted code is well typed. It never finds a wrong representation on the stack, and leaves one
object there, of exactly the type that the expression is known to have. -/

namespace Interop

namespace Slot

/-- What a conversion of an object to a type leaves. -/
def converted (known : Option HostType) (type : HostType) : Slot :=
  if type.isValueType then .value type
  else if type = .object then .object known
  else .object (some type)

theorem converted_fits (known : Option HostType) (type : HostType) :
    (converted known type).fits type := by
  unfold converted
  split
  · simp [fits, *]
  · split
    · subst type
      rfl
    · simp [fits, *]

end Slot

/-- What a machine has to know of a node: no field or property is of the type of no value, and a
known method has as many parameters as there are arguments. -/
def Access.Typed : Access Expr → Prop
  | .staticField _ field _ | .instanceField _ _ (some field) _ => field.type ≠ .void
  | .staticProperty _ property _ | .instanceProperty _ property _ => property.type ≠ .void
  | .staticMethod _ call _ | .instanceMethod _ call _ =>
    ∀ method ∈ call.method, method.arity = call.arity
  | .instanceField _ _ none _ | .dynamicMember .. => True

/-- A local variable holds what its tag says. -/
def Part.Typed (tags : Nat → Option HostType) : Part → Prop
  | .access node => node.Typed
  | .localVar binding => tags binding.index = binding.tag
  | .byRef _ => True

namespace Linking

open Machine

variable (tags : Nat → Option HostType)

/-- Linked code takes the machine from one stack to another, if there is any code. -/
def Leads (link : Linking) (before after : List Slot) : Prop :=
  ∀ linked, link = { log := linked, result := .ok () } → run tags linked before = some after

variable {tags}

theorem Leads.pure (stack : List Slot) : Leads tags (Pure.pure ()) stack stack := by
  intro linked hlink
  cases hlink
  rfl

theorem Leads.of_fail {e : InteropError} {before after : List Slot} :
    Leads tags (Logged.fail e) before after := by
  intro linked hlink
  cases hlink

theorem Leads.emit {linked : Linked} {before after : List Slot}
    (h : step tags linked before = some after) : Leads tags (emit linked) before after := by
  intro linked' hlink
  cases hlink
  rw [run_singleton, h]

theorem Leads.bind {first : Linking} {rest : Unit → Linking} {before middle after : List Slot}
    (hfirst : Leads tags first before middle) (hrest : Leads tags (rest ()) middle after) :
    Leads tags (first >>= rest) before after := by
  intro linked hlink
  obtain ⟨_, front, back, hfront, hback, rfl⟩ := Logged.bind_eq_ok hlink
  rw [run_append, hfirst front hfront]
  exact hrest back hback

theorem leads_convertTo (ofReceiver : Bool) (known : Option HostType) (type : HostType)
    (overflow : OverflowMode) (stack : List Slot) :
    Leads tags (convertTo ofReceiver type overflow) (.object known :: stack)
      (.converted known type :: stack) := by
  have hreference (h : type.isValueType = false) :
      Leads tags (unbox ofReceiver (if type = .object then .identity else .downcast type))
        (.object known :: stack) (.converted known type :: stack) := by
    unfold Slot.converted
    rw [h]
    split
    · exact .pure _
    · exact .emit rfl
  unfold convertTo
  cases type with
  | primitive | value => exact .emit rfl
  | void => exact .of_fail
  | reference | array => exact hreference rfl

/-- A target that is left as it is has the type already. -/
theorem leads_convertTarget (known : Option HostType) (declaring : HostType)
    (stack : List Slot) :
    Leads tags (convertTarget known declaring) (.object known :: stack)
      (.converted known declaring :: stack) := by
  unfold convertTarget
  split
  · exact leads_convertTo true known declaring .checked stack
  · rename_i h
    obtain ⟨hvalue, hknown⟩ := not_or.mp h
    rw [not_not.mp hknown]
    have hsame : Slot.converted (some declaring) declaring = .object (some declaring) := by
      unfold Slot.converted
      rw [if_neg hvalue]
      split <;> rfl
    rw [hsame]
    exact .pure _

theorem leads_boxResult (type : HostType) (stack : List Slot) :
    Leads tags (boxResult type) (Slot.results type ++ stack)
      (.object ((some type).filter (· ≠ .void)) :: stack) := by
  cases type with
  | void => exact .emit rfl
  | primitive | value =>
    refine .emit ?_
    simp [Slot.results, HostType.isValueType, step, Option.filter]
  | reference | array => exact .pure _

/-- A read from where a member has been reached. -/
theorem leads_read {linked : Linked} {type : HostType} {before stack : List Slot}
    (htype : type ≠ .void)
    (h : step tags linked before = some (Slot.results type ++ stack)) :
    Leads tags (do emit linked; boxResult type) before (.object (some type) :: stack) := by
  have hbox : Leads tags (boxResult type) (Slot.results type ++ stack) _ :=
    leads_boxResult type stack
  rw [show (some type).filter (· ≠ .void) = some type by simp [htype]] at hbox
  exact .bind (.emit h) hbox

/-- A store through what has been reached. -/
theorem leads_write {link : Linking} {known : Option HostType} {linked : Linked}
    {type : HostType} {before stack : List Slot} (htype : type ≠ .void) (overflow : OverflowMode)
    (hvalue : Leads tags link before (.object known :: before))
    (h : step tags linked (.converted known type :: before) = some (Slot.results type ++ stack)) :
    Leads tags (do link; convertTo false type overflow; emit linked; boxResult type) before
      (.object (some type) :: stack) :=
  .bind hvalue (.bind (leads_convertTo false known type overflow before) (leads_read htype h))

/-- A call of what is on the stack. -/
theorem leads_call {owner : Option HostType} {call : Call Expr} {before middle stack : List Slot}
    (harity : ∀ method ∈ call.method, method.arity = call.arity)
    (hargs : popArgs ((call.method.map Method.params).getD []) call.signature.args before
      = some middle)
    (hreceiver : popReceiver owner (call.method.map Method.declaring) middle = some stack) :
    Leads tags
      (do
        emit (.call owner call.signature)
        call.method.forM fun method => boxResult method.returns)
      before (.object call.type? :: stack) := by
  have hsignature : call.signature.method = call.method := rfl
  cases hmethod : call.method with
  | none =>
    rw [hmethod] at hargs hreceiver
    have hargs : popArgs [] call.signature.args before = some middle := hargs
    have hreceiver : popReceiver owner none middle = some stack := hreceiver
    have htype : call.type? = none := by rw [Call.type?, hmethod]; rfl
    rw [htype]
    refine .bind (.emit ?_) (.pure (.object none :: stack))
    simp [step, hsignature, hmethod, hargs, hreceiver]
  | some method =>
    rw [hmethod] at hargs hreceiver
    have hargs : popArgs method.params call.signature.args before = some middle := hargs
    have hreceiver : popReceiver owner (some method.declaring) middle = some stack := hreceiver
    have htype : call.type? = (some method.returns).filter (· ≠ .void) := by
      rw [Call.type?, hmethod, Option.map_some]
    rw [htype]
    refine .bind (.emit ?_) (leads_boxResult method.returns stack)
    simp [step, hsignature, hmethod, hargs, hreceiver, harity method hmethod]

/-- The target of a call, converted if the method is known. -/
theorem leads_receiver (tags : Nat → Option HostType) (call : Call Expr)
    (known : Option HostType) (stack : List Slot) :
    ∃ slot, popReceiver none (call.method.map Method.declaring) (slot :: stack) = some stack ∧
      Leads tags (call.method.forM fun method => convertTarget known method.declaring)
        (.object known :: stack) (slot :: stack) := by
  cases call.method with
  | none => exact ⟨.object known, rfl, .pure _⟩
  | some method =>
    refine ⟨.converted known method.declaring, ?_, leads_convertTarget known _ stack⟩
    exact if_pos (Slot.converted_fits known method.declaring)

end Linking

section

open Linking Machine

variable {tags : Nat → Option HostType}

mutual

theorem Expr.leads_link : (expr : Expr) → (∀ part ∈ expr.parts, part.Typed tags) →
    (stack : List Slot) → Leads tags expr.link stack (.object expr.type? :: stack)
  | .constant _, _, _ | .global _, _, _ | .typeRef _, _, _ => .emit rfl
  | .localVar binding, h, stack => by
    have htag : tags binding.index = binding.tag := h (.localVar binding) (by simp [Expr.parts])
    refine .emit ?_
    rw [step, htag]
    rfl
  | .access node, h, stack =>
    leads_linkAccess node (h (.access node) (by simp [Expr.parts]))
      (fun part hpart => h part (by simp [Expr.parts, hpart])) stack
  | .assign target value overflow _, h, stack =>
    leads_linkStore target (h (.access target) (by simp [Expr.parts]))
      (fun part hpart => h part (by simp [Expr.parts, hpart]))
      (value.leads_link fun part hpart => h part (by simp [Expr.parts, hpart])) overflow stack

theorem leads_linkAccess : (node : Access Expr) → node.Typed →
    (∀ part ∈ innerParts node, part.Typed tags) →
    (stack : List Slot) → Leads tags (linkAccess node) stack (.object node.type? :: stack)
  | .staticField .., htype, _, _ | .staticProperty .., htype, _, _ => leads_read htype rfl
  | .staticMethod _ call _, harity, h, stack => by
    obtain ⟨after, hargs, hcall⟩ := leads_linkCall call h stack
    exact .bind hcall (leads_call harity hargs rfl)
  | .instanceField target _ none _, _, h, stack | .dynamicMember target _ _, _, h, stack =>
    .bind (target.leads_link h stack) (.emit rfl)
  | .instanceField target _ (some _) _, htype, h, stack
  | .instanceProperty target _ _, htype, h, stack => by
    refine .bind (target.leads_link h stack) (.bind (leads_convertTarget _ _ stack) ?_)
    exact leads_read htype (by simp [step, popReceiver, Slot.converted_fits])
  | .instanceMethod target call _, harity, h, stack => by
    have hleft : ∀ part ∈ target.parts, part.Typed tags :=
      fun part hpart => h part (List.mem_append_left _ hpart)
    have hright : ∀ part ∈ call.parts, part.Typed tags :=
      fun part hpart => h part (List.mem_append_right _ hpart)
    have htarget := target.leads_link hleft stack
    -- the receiver waits below the arguments until the call takes it
    obtain ⟨slot, hslot, hreceiver⟩ := leads_receiver tags call target.type? stack
    obtain ⟨after, hargs, hcall⟩ := leads_linkCall call hright (slot :: stack)
    exact .bind htarget (.bind hreceiver (.bind hcall (leads_call harity hargs hslot)))

theorem leads_linkStore : (node : Access Expr) → node.Typed →
    (∀ part ∈ innerParts node, part.Typed tags) → {link : Linking} → {known : Option HostType} →
    (∀ stack, Leads tags link stack (.object known :: stack)) → (overflow : OverflowMode) →
    (stack : List Slot) →
    Leads tags (linkStore node link overflow) stack (.object node.type? :: stack)
  | .staticField .., htype, _, _, _, hvalue, overflow, stack
  | .staticProperty .., htype, _, _, _, hvalue, overflow, stack => by
    rw [linkStore]
    split
    · exact .of_fail
    · exact leads_write htype overflow (hvalue stack)
        (by simp [step, popReceiver, Slot.converted_fits])
  | .instanceField target _ none _, _, h, _, _, hvalue, _, stack => by
    rw [linkStore]
    split
    · exact .of_fail
    · exact .bind (target.leads_link h stack) (.bind (hvalue _) (.emit rfl))
  | .instanceField target _ (some _) _, htype, h, _, _, hvalue, overflow, stack
  | .instanceProperty target _ _, htype, h, _, _, hvalue, overflow, stack => by
    rw [linkStore]
    split
    · exact .of_fail
    · refine .bind (target.leads_link h stack) (.bind (leads_convertTarget _ _ stack) ?_)
      exact leads_write htype overflow (hvalue _)
        (by simp [step, popReceiver, Slot.converted_fits])
  | .staticMethod .., _, _, _, _, _, _, _ | .instanceMethod .., _, _, _, _, _, _, _
  | .dynamicMember .., _, _, _, _, _, _, _ => .of_fail

theorem leads_linkCall : (call : Call Expr) → (∀ part ∈ call.parts, part.Typed tags) →
    (stack : List Slot) → ∃ after,
      popArgs ((call.method.map Method.params).getD []) call.signature.args after = some stack ∧
        Leads tags (linkCall call) stack after
  | { args, .. }, h, stack => leads_linkArgs _ _ args h stack

/-- Arguments are left on the stack as the call takes them off. -/
theorem leads_linkArgs (params : List HostType) (overflow : OverflowMode) :
    (args : List (Argument Expr)) → (∀ part ∈ argumentsParts args, part.Typed tags) →
    (stack : List Slot) → ∃ after,
      popArgs params (args.map fun arg => { value := (), byRef := arg.byRef }) after = some stack ∧
        Leads tags (linkArgs params overflow args) stack after
  | [], _, stack => ⟨stack, rfl, .pure stack⟩
  | arg :: args, h, stack => by
    obtain ⟨slot, hpasses, hfirst⟩ := leads_linkArgument params.head? overflow arg
      (fun part hpart => h part (List.mem_append_left _ hpart)) stack
    obtain ⟨after, hpop, hrest⟩ := leads_linkArgs params.tail overflow args
      (fun part hpart => h part (List.mem_append_right _ hpart)) (slot :: stack)
    refine ⟨after, ?_, .bind hfirst hrest⟩
    simp only [List.map_cons, popArgs, hpop]
    exact if_pos hpasses

theorem leads_linkArgument (param : Option HostType) (overflow : OverflowMode) :
    (arg : Argument Expr) → (∀ part ∈ argumentParts arg, part.Typed tags) → (stack : List Slot) →
    ∃ slot : Slot, slot.passes { value := (), byRef := arg.byRef } param ∧
      Leads tags (linkArgument param overflow arg) stack (slot :: stack)
  | { byRef := some binding, .. }, _, _ =>
    ⟨.address binding.index, by simp [Slot.passes], .emit rfl⟩
  | { value, byRef := none }, h, stack => by
    have hvalue := value.leads_link h stack
    cases param with
    | none => exact ⟨_, rfl, .bind hvalue (.pure _)⟩
    | some type =>
      exact ⟨_, Slot.converted_fits value.type? type,
        .bind hvalue (leads_convertTo false value.type? type overflow stack)⟩

end

end

/-! ## Analyzed expressions -/

/-- No field and no property of the catalog is of the type of no value. -/
def Catalog.VoidFree (catalog : Catalog) : Prop :=
  (∀ field ∈ catalog.fields, field.type ≠ .void) ∧
    ∀ property ∈ catalog.properties, property.type ≠ .void

theorem Catalog.Provides.typed {catalog : Catalog} {node : Access Expr} (hvoid : catalog.VoidFree)
    (h : catalog.Provides node) : node.Typed := by
  obtain ⟨hfields, hproperties⟩ := hvoid
  cases node with
  | staticField type field site => exact hfields field h
  | staticProperty type property site => exact hproperties property h
  | staticMethod type call site => exact fun method hmethod => (h method hmethod).2.2
  | instanceField target name field site =>
    cases field with
    | none => trivial
    | some field => exact hfields field (h field rfl)
  | instanceProperty target property site => exact hproperties property h
  | instanceMethod target call site => exact fun method hmethod => (h method hmethod).2.2
  | dynamicMember target name site => trivial

/-- A local variable in an expression is one of the bindings. -/
theorem Context.Binds.mem {context : Context} {binding : LocalBinding}
    (h : context.Binds binding) : binding ∈ context.locals.bindings := by
  obtain ⟨symbol, hlookup⟩ := h
  unfold LexicalEnv.lookup? at hlookup
  split at hlookup
  · cases hlookup
  · exact List.mem_of_find?_eq_some hlookup

/-- **Code is well typed.** The code of an expression that was analyzed over a catalog runs on
every stack, if the local variables are of their tags. It adds one object, known to be of exactly
the type of the expression. -/
theorem run_code {catalog : Catalog} {context : Context} {form : Form} {expr : Expr}
    {code : List Instr} {tags : Nat → Option HostType} (hhost : context.host = catalog.host)
    (hvoid : catalog.VoidFree)
    (htags : ∀ binding ∈ context.locals.bindings, tags binding.index = binding.tag)
    (hexpr : (analyze context form).result = .ok expr) (hcode : expr.code = .ok code)
    (stack : List Slot) :
    code = expr.linked.map Linked.instr ∧
      Machine.run tags expr.linked stack = some (.object expr.type? :: stack) := by
  obtain ⟨hlink, hcode⟩ := expr.code_eq_linked hcode
  have htyped : ∀ part ∈ expr.parts, part.Typed tags := by
    intro part hpart
    cases part with
    | access node => exact (analyze_provides hhost hexpr hpart).typed hvoid
    | localVar binding => exact htags binding (analyze_gives hexpr _ hpart).mem
    | byRef binding => trivial
  exact ⟨hcode, expr.leads_link htyped stack expr.linked hlink⟩

theorem run_code_max :
    Machine.run (fun _ => some (.primitive .int32)) (Expr.access maxNode).linked []
      = some [.object (some (.primitive .int32))] := by
  have hhost : maxContext.host = maxCatalog.host := rfl
  have hvoid : maxCatalog.VoidFree := by simp [Catalog.VoidFree, Catalog.fields,
    Catalog.properties, maxCatalog]
  have htags : ∀ binding ∈ maxContext.locals.bindings, some (.primitive .int32) = binding.tag := by
    simp [maxContext, LexicalEnv.bind]
  exact (run_code hhost hvoid htags analyze_maxForm rfl []).2

end Interop
