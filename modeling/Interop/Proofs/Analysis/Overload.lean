import Interop.Catalog.Document
import Interop.Proofs.Analysis.GenericArity
import Interop.Proofs.Analysis.Members
import Interop.Proofs.Catalog.Reach

/-! The overload of a call. Methods are told apart by name, staticness and number of parameters, and
the first one in the search is the only one that a call can be bound to: a later one that fits the
type arguments better is not looked at. -/

namespace Interop

/-! ## Candidates -/

/-- The method is what a call asks for, its type parameters aside. -/
structure Method.Fits (method : Method) (isStatic : Bool) (name : String) (arity : Nat) : Prop where
  name : method.name = name
  isStatic : method.isStatic = isStatic
  arity : method.arity = arity

namespace Catalog

/-- The methods that are searched for a call on a type, those of the type itself first. -/
def candidates (catalog : Catalog) (isStatic : Bool) (type : HostType) : List Method :=
  (catalog.lineage isStatic type).flatMap CatalogEntry.methods

/-- The first of the candidates that fits. -/
def FirstFit (catalog : Catalog) (isStatic : Bool) (type : HostType) (name : String) (arity : Nat)
    (method : Method) : Prop :=
  ∃ before after, catalog.candidates isStatic type = before ++ method :: after ∧
    method.Fits isStatic name arity ∧ ∀ other ∈ before, ¬ other.Fits isStatic name arity

theorem method?_eq_some_iff {catalog : Catalog} {isStatic : Bool} {type : HostType} {name : String}
    {arity : Nat} {method : Method} :
    catalog.method? isStatic type name arity = some method ↔
      catalog.FirstFit isStatic type name arity method := by
  have hfits (other : Method) :
      (other.name = name && other.isStatic = isStatic && other.arity = arity) = true ↔
        other.Fits isStatic name arity := by
    simp only [Bool.and_eq_true, decide_eq_true_eq]
    exact ⟨fun ⟨⟨hname, hstatic⟩, harity⟩ => ⟨hname, hstatic, harity⟩,
      fun h => ⟨⟨h.name, h.isStatic⟩, h.arity⟩⟩
  rw [method?, findMember?, List.find?_eq_some_iff_append, hfits]
  simp only [Bool.not_eq_true', Bool.eq_false_iff, ne_eq, hfits]
  constructor
  · rintro ⟨hmethod, before, after, hsplit, hbefore⟩
    exact ⟨before, after, hsplit, hmethod, hbefore⟩
  · rintro ⟨before, after, hsplit, hmethod, hbefore⟩
    exact ⟨hmethod, before, after, hsplit, hbefore⟩

end Catalog

/-! ## Calls and their forms -/

namespace Form

/-- Whether an access is written as a call: with something behind the member, or with the member in
parentheses. -/
def isCall (form : Form) : Bool := form.isHeadedBy accessMarker && !form.isMemberAlone

/-- The number of arguments that are written in a call. -/
def argCount (form : Form) : Nat :=
  match form.list? with
  | some (_ :: _ :: member :: rest) =>
    match callParts member rest form.span with
    | .ok (_, tail) => (splitTypeArgs tail).2.length
    | .error _ => 0
  | _ => 0

end Form

namespace Receiver

theorem receiver_methodNode (receiver : Receiver Expr) (call : Call Expr) (site : Site) :
    (receiver.methodNode call site).receiver = receiver := by
  cases receiver <;> rfl

theorem isStatic_methodNode (receiver : Receiver Expr) (call : Call Expr) (site : Site) :
    (receiver.methodNode call site).isStatic = receiver.isStatic := by
  cases receiver <;> rfl

theorem memberName_methodNode (receiver : Receiver Expr) (call : Call Expr) (site : Site) :
    (receiver.methodNode call site).memberName = call.name := by
  cases receiver <;> rfl

end Receiver

/-- What is written as an access means one. -/
theorem analyze_access {context : Context} {form : Form} {expr : Expr}
    (hheaded : form.isHeadedBy accessMarker) (h : (analyze context form).result = .ok expr) :
    ∃ node, (analyzeAccess analyze context form).result = .ok node ∧ expr = .access node := by
  rw [analyze_eq] at h
  cases form with
  | leaf => cases hheaded
  | group delimiter items span =>
    simp only [analyzeStep, hheaded, if_true] at h
    obtain ⟨node, hnode, h⟩ := Logged.bind_ok h
    exact ⟨node, hnode, (Logged.pure_ok h).symm⟩

/-- A form that means a node spells it. -/
theorem spells_of_analyzeAccess {context : Context} (hhost : context.host.Answers) {form : Form}
    {node : Access Expr} (h : (analyzeAccess analyze context form).result = .ok node) :
    context.Spells form node := by
  obtain ⟨hmember, target, htarget, hreceiver⟩ := analyzeAccess_spells hhost h
  refine ⟨hmember, target, htarget, ?_⟩
  rcases targetReceiver_cases hreceiver with ⟨type, htype, hreached⟩ | ⟨value, htype, _, hreached⟩
  · rw [(Access.staticType?_of_receiver hreached).1, htype]
  · rw [(Access.target?_of_receiver hreached).1, htype]

/-- A form spells the call of a node: besides what it spells of the node, the arguments and the type
arguments are as many as it has. -/
structure Context.SpellsCall (context : Context) (form : Form) (node : Access Expr)
    (call : Call Expr) : Prop extends context.Spells form node where
  method : node.call? = some call
  name : call.name = node.memberName
  args : call.arity = form.argCount
  typeArgs : call.typeArgList.length = form.typeArgCount

/-- A form that is no member alone means a call, and the overload of this is the host's answer. -/
theorem analyzeAccess_call {context : Context} (hhost : context.host.Answers) {form : Form}
    {node : Access Expr} (hcall : ¬ form.isMemberAlone)
    (h : (analyzeAccess analyze context form).result = .ok node) :
    ∃ call, context.SpellsCall form node call ∧
      call.method = (node.receiver.type?.bind fun type =>
        context.host.method? node.isStatic type call.name call.arity).filter
          (·.genericArity = form.typeArgCount) := by
  have hspells := spells_of_analyzeAccess hhost h
  obtain ⟨marker, target, member, rest, receiver, hlist, _, h⟩ := analyzeAccess_cases h
  rcases h with ⟨symbol, hsymbol, rfl, _⟩ | ⟨_, h⟩
  · exact absurd (by simp [Form.isMemberAlone, hlist, hsymbol]) hcall
  · obtain ⟨symbol, tail, call, hparts, _, htypes, hargs, hoverload, rfl⟩ := callAccess_cases h
    have hparts : callParts member rest form.span = .ok (symbol, tail) := hparts
    have hwritten : form.argCount = call.arity := by
      simp only [Form.argCount, hlist, hparts]
      exact (Logged.mapM_ok hargs).length_eq
    have htypeArgs := Form.typeArgCount_eq hlist hparts htypes
    refine ⟨call, ⟨hspells, receiver.call?_methodNode .., (receiver.memberName_methodNode ..).symm,
      hwritten.symm, htypeArgs.symm⟩, ?_⟩
    rw [receiver.receiver_methodNode, receiver.isStatic_methodNode, htypeArgs]
    exact findOverload?_eq_ok hoverload

/-! ## The overload of a call -/

/-- The method that the search for a call comes to first, in the type that the call is static on, or
else in that of its target. -/
def Catalog.Chooses (catalog : Catalog) (node : Access Expr) (call : Call Expr)
    (method : Method) : Prop :=
  ∃ type, node.receiver.type? = some type ∧
    catalog.FirstFit node.isStatic type call.name call.arity method

/-- **Which calls are bound.** Over a catalog, a call is bound exactly if the first method in the
search that has its name and its number of parameters, and is static as it is, has as many type
parameters as type arguments are written; and then it is bound to that method. -/
theorem call_bound_iff {catalog : Catalog} {context : Context} {form : Form} {expr : Expr}
    (hhost : context.host = catalog.host) (hcall : form.isCall)
    (h : (analyze context form).result = .ok expr) :
    ∃ node call, expr = .access node ∧ context.SpellsCall form node call ∧
      (call.isBound ↔
        ∃ method, catalog.Chooses node call method ∧ method.genericArity = form.typeArgCount) ∧
      ∀ method, call.method = some method → catalog.Chooses node call method := by
  obtain ⟨hheaded, halone⟩ := (Bool.and_eq_true ..).mp hcall
  obtain ⟨node, hnode, rfl⟩ := analyze_access hheaded h
  have halone : ¬ form.isMemberAlone := by simpa using halone
  obtain ⟨call, hspells, hoverload⟩ :=
    analyzeAccess_call (hhost ▸ catalog.host_answers) halone hnode
  have hbound : ∀ method, call.method = some method ↔
      catalog.Chooses node call method ∧ method.genericArity = form.typeArgCount := by
    intro method
    rw [hoverload, Option.filter_eq_some_iff, Option.bind_eq_some_iff, hhost]
    simp only [Catalog.host, Catalog.method?_eq_some_iff, decide_eq_true_eq, Catalog.Chooses]
  refine ⟨node, call, rfl, hspells, ?_, fun method hmethod => ((hbound method).mp hmethod).1⟩
  rw [Call.isBound, Option.isSome_iff_exists]
  exact exists_congr hbound

/-- `(. "x" (Equals 1))` over the built-in declarations: the method is one of `System.Object`. -/
theorem call_bound_iff_equals :
    let word (name : String) : Form := .leaf (.symbol { name }) {}
    let list (items : List Form) : Form := .group .paren items {}
    let form := list [word ".", .leaf (.string "x") {}, list [word "Equals", .leaf (.int 1) {}]]
    let context : Context :=
      { host := Catalog.builtin.host, names := { name := "user" }, source := "equals" }
    ∃ node call method, (analyze context form).result = .ok (.access node) ∧
      node.call? = some call ∧ call.isBound ∧ Catalog.builtin.Chooses node call method ∧
      method.genericArity = form.typeArgCount := by
  intro word list form context
  have hruns : (match (analyze context form).result with
      | .ok (.access node) => node.call?.any (·.isBound)
      | _ => false) = true := by
    decide +kernel
  split at hruns
  · rename_i found hexpr
    have hhost : context.host = Catalog.builtin.host := rfl
    obtain ⟨node, call, hnode, hspells, hiff, -⟩ := call_bound_iff hhost (by decide) hexpr
    obtain rfl : found = node := Expr.access.inj hnode
    have hbound : call.isBound := by simpa only [hspells.method, Option.any_some] using hruns
    obtain ⟨method, hchosen, hcount⟩ := hiff.mp hbound
    exact ⟨found, call, method, hexpr, hspells.method, hbound, hchosen, hcount⟩
  · cases hruns

/-- A generic method behind one that is not: the call with a type argument is left to run time. -/
theorem call_not_bound_generic :
    let C := Catalog.after declarations? ["types = [\x7b name = \"X\", methods = [
      \x7b name = \"M\", static = true \x7d,
      \x7b name = \"M\", static = true, generic_arity = 1 \x7d] \x7d]"]
    let word (name : String) : Form := .leaf (.symbol { name }) {}
    let list (items : List Form) : Form := .group .paren items {}
    let form := list [word ".", word "X", list [word "M", list [word "type-args", word "int"]]]
    let context : Context := { host := C.host, names := { name := "user" }, source := "generic" }
    form.isCall ∧ ∃ node call type method, (analyze context form).result = .ok (.access node) ∧
      node.call? = some call ∧ call.isBound = false ∧ node.receiver.type? = some type ∧
      method ∈ C.candidates node.isStatic type ∧
      method.Fits node.isStatic call.name call.arity ∧
      method.genericArity = form.typeArgCount := by
  intro C word list form context
  let type : HostType := .reference "X"
  let method : Method :=
    { declaring := type, name := "M", params := [], returns := .void, isStatic := true,
      genericArity := 1 }
  have hruns : (match (analyze context form).result with
      | .ok (.access (.staticMethod owner call _)) =>
        decide (owner = type ∧ call.name = "M" ∧ call.arity = 0 ∧ call.isBound = false ∧
          method ∈ C.candidates true type)
      | _ => false) = true := by
    decide +kernel
  split at hruns
  · rename_i owner call site hexpr
    obtain ⟨rfl, hname, harity, hbound, hfound⟩ := of_decide_eq_true hruns
    exact ⟨by decide, _, call, type, method, hexpr, rfl, hbound, rfl, hfound,
      ⟨hname.symm, rfl, harity.symm⟩, rfl⟩
  · cases hruns

end Interop
