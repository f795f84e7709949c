import Interop.Proofs.Analysis.Parts
import Interop.Proofs.Catalog.Lookup
import Interop.Catalog.Builtin

/-! Nodes and the members in them. Over a host that answers what it was asked, a node has the member
that its form names, static exactly if the target of the form denotes a type; and what a node is
reached through is never itself a type. -/

namespace Interop

/-! ## Hosts that answer what they were asked -/

/-- A member that is found has the name that was asked for, and is static as asked; a method takes
as many arguments as asked. -/
structure Host.Answers (host : Host) : Prop where
  field {isStatic : Bool} {type : HostType} {name : String} {field : Field} :
    host.field? isStatic type name = some field → field.name = name ∧ field.isStatic = isStatic
  property {isStatic : Bool} {type : HostType} {name : String} {property : Property} :
    host.property? isStatic type name = some property →
      property.name = name ∧ property.isStatic = isStatic
  nullaryMethod {isStatic : Bool} {type : HostType} {name : String} {method : Method} :
    host.nullaryMethod? isStatic type name = some method →
      method.name = name ∧ method.isStatic = isStatic ∧ method.arity = 0
  method {isStatic : Bool} {type : HostType} {name : String} {arity : Nat} {method : Method} :
    host.method? isStatic type name arity = some method →
      method.name = name ∧ method.isStatic = isStatic ∧ method.arity = arity

theorem Catalog.host_answers (catalog : Catalog) : catalog.host.Answers where
  field h := (field?_eq_some h).2
  property h := (property?_eq_some h).2
  nullaryMethod h := (method?_eq_some h).2
  method h := (method?_eq_some h).2

/-! ## Nodes that agree with their members -/

namespace Access

variable {α : Type}

/-- The field of a node, when it is known. -/
def field? : Access α → Option Field
  | .staticField _ field _ => some field
  | .instanceField _ _ field _ => field
  | _ => none

def property? : Access α → Option Property
  | .staticProperty _ property _ | .instanceProperty _ property _ => some property
  | _ => none

/-- What the member of a node is reached through. -/
def receiver : Access α → Receiver α
  | .staticField type _ _ | .staticProperty type _ _ | .staticMethod type _ _ => .static type
  | .instanceField target _ _ _ | .instanceProperty target _ _ | .instanceMethod target _ _
  | .dynamicMember target _ _ => .object target

theorem staticType?_of_receiver {node : Access α} {type : HostType}
    (h : node.receiver = .static type) : node.staticType? = some type ∧ node.target? = none := by
  cases node <;> cases h <;> exact ⟨rfl, rfl⟩

theorem target?_of_receiver {node : Access α} {target : α} (h : node.receiver = .object target) :
    node.staticType? = none ∧ node.target? = some target := by
  cases node <;> cases h <;> exact ⟨rfl, rfl⟩

/-- The member of a node has the name that the node gives it, and is static exactly if the node is;
a method has a parameter for each argument. -/
structure Coherent (node : Access α) : Prop where
  field : ∀ field, node.field? = some field →
    field.name = node.memberName ∧ field.isStatic = node.isStatic
  property : ∀ property, node.property? = some property →
    property.name = node.memberName ∧ property.isStatic = node.isStatic
  method : ∀ call method, node.call? = some call → call.method = some method →
    method.name = call.name ∧ method.arity = call.arity ∧ method.isStatic = node.isStatic

end Access

theorem Resolved.coherent {host : Host} (hhost : host.Answers) {node : Access Expr}
    (h : Resolved host node) : node.Coherent := by
  cases h with
  | staticField hfound =>
    refine ⟨?_, nofun, nofun⟩
    rintro field ⟨⟩
    exact ⟨rfl, (hhost.field hfound).2⟩
  | staticProperty hfound =>
    refine ⟨nofun, ?_, nofun⟩
    rintro property ⟨⟩
    exact ⟨rfl, (hhost.property hfound).2⟩
  | staticNullary hfound =>
    refine ⟨nofun, nofun, ?_⟩
    rintro call method ⟨⟩ ⟨⟩
    obtain ⟨hname, hstatic, harity⟩ := hhost.nullaryMethod hfound
    exact ⟨hname, harity, hstatic⟩
  | staticCall hfound =>
    refine ⟨nofun, nofun, ?_⟩
    rintro call method ⟨⟩ hmethod
    obtain ⟨hname, hstatic, harity⟩ := hhost.method (hfound method hmethod).1
    exact ⟨hname, harity, hstatic⟩
  | instanceField _ hfound =>
    refine ⟨?_, nofun, nofun⟩
    rintro field ⟨⟩
    exact hhost.field hfound
  | deferredField => exact ⟨nofun, nofun, nofun⟩
  | instanceProperty _ hfound =>
    refine ⟨nofun, ?_, nofun⟩
    rintro property ⟨⟩
    exact ⟨rfl, (hhost.property hfound).2⟩
  | instanceNullary _ hfound =>
    refine ⟨nofun, nofun, ?_⟩
    rintro call method ⟨⟩ ⟨⟩
    obtain ⟨hname, hstatic, harity⟩ := hhost.nullaryMethod hfound
    exact ⟨hname, harity, hstatic⟩
  | instanceCall hfound =>
    refine ⟨nofun, nofun, ?_⟩
    rintro call method ⟨⟩ hmethod
    obtain ⟨_, _, hhostMethod, _⟩ := hfound method hmethod
    obtain ⟨hname, hstatic, harity⟩ := hhost.method hhostMethod
    exact ⟨hname, harity, hstatic⟩
  | dynamicMember => exact ⟨nofun, nofun, nofun⟩

/-! ## Nodes and their forms -/

/-- The target that an access is written with. -/
def Form.accessTarget? (form : Form) : Option Form :=
  match form.list? with
  | some (_ :: target :: _) => some target
  | _ => none

/-- The host name of the member that an access is written with. The hyphen of a member alone is
no part of its name. -/
def Form.hostMember? (form : Form) : Option String :=
  match form.list? with
  | some (_ :: _ :: member :: rest) =>
    match member.symbol?, rest with
    | some symbol, [] => some (hostMemberName (splitPropertyStyle symbol.name).2)
    | _, _ =>
      match callParts member rest form.span with
      | .ok (symbol, _) => some (hostMemberName symbol.name)
      | .error _ => none
  | _ => none

/-- A form spells a node: it names the member, and its target denotes the type of a static node and
no type for any other. -/
structure Context.Spells (context : Context) (form : Form) (node : Access Expr) : Prop where
  member : form.hostMember? = some node.memberName
  target : ∃ target, form.accessTarget? = some target ∧
    (formType? context false target).result = .ok node.staticType?

/-- A member alone has the name that was asked for. -/
theorem NullaryNode.spells {context : Context} (hhost : context.host.Answers) {name : String}
    {receiver : Receiver Expr} {site : Site} {node : Access Expr}
    (h : NullaryNode context name site receiver node) :
    node.receiver = receiver ∧ node.memberName = name := by
  cases h with
  | staticField hfound => exact ⟨rfl, (hhost.field hfound).1⟩
  | staticProperty hfound => exact ⟨rfl, (hhost.property hfound).1⟩
  | instanceProperty _ hfound => exact ⟨rfl, (hhost.property hfound).1⟩
  | _ => exact ⟨rfl, rfl⟩

/-- The node of an access has the receiver that the target was taken for, and the member that the
form names. -/
theorem analyzeAccess_spells {analyze : Analyzer} {context : Context}
    (hhost : context.host.Answers) {form : Form} {node : Access Expr}
    (h : (analyzeAccess analyze context form).result = .ok node) :
    form.hostMember? = some node.memberName ∧ ∃ target, form.accessTarget? = some target ∧
      (targetReceiver analyze context target).result = .ok node.receiver := by
  obtain ⟨marker, target, member, rest, receiver, hlist, hreceiver, h⟩ := analyzeAccess_cases h
  have htarget : form.accessTarget? = some target := by simp only [Form.accessTarget?, hlist]
  rcases h with ⟨symbol, hsymbol, rfl, h⟩ | ⟨hcall, h⟩
  · obtain ⟨hreached, hname⟩ := (nullaryAccess_node h).spells hhost
    refine ⟨?_, target, htarget, hreached ▸ hreceiver⟩
    simp only [Form.hostMember?, hlist, hsymbol, hname]
  · obtain ⟨symbol, tail, call, hparts, hname, _, _, _, rfl⟩ := callAccess_cases h
    have hparts : callParts member rest form.span = .ok (symbol, tail) := hparts
    have hmember : form.hostMember? = some call.name := by
      rw [hname]
      simp only [Form.hostMember?, hlist]
      split
      · rename_i written hwritten _
        exact absurd hcall (by simp [hwritten])
      · rw [hparts]
    cases receiver with
    | static type => exact ⟨hmember, target, htarget, hreceiver⟩
    | object value => exact ⟨hmember, target, htarget, hreceiver⟩

/-! ## Targets that denote no type -/

/-- An alias of a type denotes one, unless a local variable or a qualifier hides it. -/
theorem symbolType?_alias {context : Context} {symbol : Symbol} {span : Span} {type : HostType}
    (hlocal : context.locals.lookup? symbol = none) (hqualified : ¬ symbol.isQualified)
    (halias : context.names.lookup? symbol.name = some (.type type)) :
    (symbolType? context symbol span).result ≠ .ok none := by
  intro hnone
  unfold symbolType? at hnone
  rw [LexicalEnv.binds, hlocal] at hnone
  simp only [Option.isSome_none, Bool.false_or, hqualified] at hnone
  split at hnone
  · contradiction
  · split at hnone
    · obtain ⟨found, -, hnone⟩ := Logged.bind_ok hnone
      cases Logged.pure_ok hnone
    · rw [halias] at hnone
      cases Logged.pure_ok hnone

/-- A form that denotes no type means no type either. -/
theorem analyze_ne_typeRef {context : Context} {form : Form} {expr : Expr}
    (htype : (formType? context false form).result = .ok none)
    (h : (analyze context form).result = .ok expr) (type : HostType) : expr ≠ .typeRef type := by
  rintro rfl
  rw [analyze_eq] at h
  rcases analyzeStep_cases h with ⟨datum, span, rfl, hdatum⟩ | ⟨node, _, hnode⟩ |
      ⟨delimiter, items, span, rfl, hassign⟩
  · cases datum with
    | embedded type => cases htype
    | symbol symbol =>
      simp only [datumExpr, symbolExpr] at hdatum
      split at hdatum
      · cases Logged.pure_ok hdatum
      · rename_i hlocal
        split at hdatum
        · cases Logged.pure_ok hdatum
        · rename_i hqualified
          split at hdatum
          · cases Logged.pure_ok hdatum
          · rename_i found halias
            exact absurd htype (symbolType?_alias hlocal hqualified halias)
          · obtain ⟨found, hfound, hdatum⟩ := Logged.bind_ok hdatum
            obtain rfl : none = found := Except.ok.inj (htype.symm.trans hfound)
            cases hdatum
    | _ => cases Logged.pure_ok hdatum
  · cases hnode
  · obtain ⟨_, _, _, node, stored, _, _, _, _, hassigned⟩ := assignExpr_cases hassign
    cases hassigned

/-! Whether a form is assigned to has no part in which type it denotes. -/

theorem lookupArray_assigning (context : Context) (assigning : Bool) (span : Span)
    (base : String) (rank : Nat) :
    lookupArray { context with assigning } span base rank = lookupArray context span base rank := by
  induction rank with
  | zero => rfl
  | succ rank ih =>
    simp only [lookupArray, ih]
    rfl

theorem formType?_assigning (context : Context) (assigning allowString : Bool) (form : Form) :
    formType? { context with assigning } allowString form =
      formType? context allowString form := by
  have hlookup := fun name span =>
    lookupArray_assigning context assigning span (splitArrayName name).1 (splitArrayName name).2
  cases form with
  | group => rfl
  | leaf datum span =>
    cases datum with
    | symbol symbol =>
      simp only [formType?, symbolType?, lookupType, hlookup]
      rfl
    | _ => simp only [formType?, lookupType, hlookup]

/-! ## Analyzed expressions -/

/-- **Nodes agree with their members.** Over a catalog, the member of every node in an analyzed
expression has the name that the node gives it, is static exactly if the node is, and takes as many
arguments as there are. What an instance is reached through is no type. Every node comes from a
form inside the analyzed one that names the member, and it is static exactly if the target of this
form denotes a type. -/
theorem nodes_agree {catalog : Catalog} {context : Context} {form : Form} {expr : Expr}
    (hhost : context.host = catalog.host) (h : (analyze context form).result = .ok expr)
    {node : Access Expr} (hnode : .access node ∈ expr.parts) :
    node.Coherent ∧ (∀ target, node.target? = some target → ∀ type, target ≠ .typeRef type) ∧
      ∃ source : Form, source.Inside form ∧ context.Spells source node := by
  obtain ⟨source, hinside, assigning, hsource⟩ := analyze_gives h _ hnode
  have hanswers : ({ context with assigning } : Context).host.Answers :=
    hhost ▸ catalog.host_answers
  obtain ⟨hmember, target, htarget, hreceiver⟩ := analyzeAccess_spells hanswers hsource
  have hcoherent := (analyzeAccess_resolved hsource).coherent hanswers
  rcases targetReceiver_cases hreceiver with ⟨type, htype, hreached⟩ |
      ⟨value, htype, hvalue, hreached⟩
  · obtain ⟨hstatic, hnone⟩ := Access.staticType?_of_receiver hreached
    rw [formType?_assigning] at htype
    refine ⟨hcoherent, ?_, source, hinside, hmember, target, htarget, hstatic ▸ htype⟩
    intro value hvalue
    rw [hnone] at hvalue
    cases hvalue
  · obtain ⟨hstatic, hsome⟩ := Access.target?_of_receiver hreached
    rw [formType?_assigning] at htype
    refine ⟨hcoherent, ?_, source, hinside, hmember, target, htarget, hstatic ▸ htype⟩
    intro reached hreached
    obtain rfl : value = reached := Option.some.inj (hsome.symm.trans hreached)
    have hnone : (formType? { context with assigning := false } false target).result = .ok none := by
      rw [formType?_assigning, htype]
    exact analyze_ne_typeRef hnone hvalue

/-- `(. "x" Length)` over the built-in declarations. -/
theorem nodes_agree_length :
    let word (name : String) : Form := .leaf (.symbol { name }) {}
    let form : Form := .group .paren [word ".", .leaf (.string "x") {}, word "Length"] {}
    let context : Context :=
      { host := Catalog.builtin.host, names := { name := "user" }, source := "length" }
    ∃ node, (analyze context form).result = .ok (.access node) ∧ node.property?.isSome ∧
      node.Coherent ∧ ∃ source : Form, source.Inside form ∧ context.Spells source node := by
  intro word form context
  have hruns : (match (analyze context form).result with
      | .ok (.access node) => node.property?.isSome
      | _ => false) = true := by
    decide +kernel
  split at hruns
  · rename_i node hexpr
    have hnode : .access node ∈ (Expr.access node).parts := List.mem_cons_self
    have hhost : context.host = Catalog.builtin.host := rfl
    obtain ⟨hcoherent, -, hsource⟩ := nodes_agree hhost hexpr hnode
    exact ⟨node, hexpr, hruns, hcoherent, hsource⟩
  · cases hruns

end Interop
