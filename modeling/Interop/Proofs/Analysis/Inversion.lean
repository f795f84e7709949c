import Interop.Proofs.Analysis.Recursion
import Interop.Proofs.Expr.Parts

/-! What the analysis of an access can return: its member is what the host answered, and its parts
are what the forms in it were analyzed to. -/

namespace Interop

/-- The accesses that analysis builds over a host. A call keeps an overload only if it has as many
type parameters as type arguments were written; a member alone that turns out to be a method is
taken as it is. -/
inductive Resolved (host : Host) : Access Expr → Prop
  | staticField {type : HostType} {name : String} {field : Field} {site : Site} :
      host.field? true type name = some field → Resolved host (.staticField type field site)
  | staticProperty {type : HostType} {name : String} {property : Property} {site : Site} :
      host.property? true type name = some property →
      Resolved host (.staticProperty type property site)
  | staticNullary {type : HostType} {name : String} {method : Method} {overflow : OverflowMode}
      {site : Site} : host.nullaryMethod? true type name = some method →
      Resolved host (.staticMethod type { name, method := some method, overflow } site)
  | staticCall {type : HostType} {call : Call Expr} {site : Site} :
      (∀ method, call.method = some method →
        host.method? true type call.name call.arity = some method ∧
          method.genericArity = call.typeArgList.length) →
      Resolved host (.staticMethod type call site)
  | instanceField {target : Expr} {type : HostType} {name : String} {field : Field} {site : Site} :
      target.type? = some type → host.field? false type name = some field →
      Resolved host (.instanceField target name (some field) site)
  | deferredField {target : Expr} {name : String} {site : Site} :
      Resolved host (.instanceField target name none site)
  | instanceProperty {target : Expr} {type : HostType} {name : String} {property : Property}
      {site : Site} :
      target.type? = some type → host.property? false type name = some property →
      Resolved host (.instanceProperty target property site)
  | instanceNullary {target : Expr} {type : HostType} {name : String} {method : Method}
      {overflow : OverflowMode} {site : Site} :
      target.type? = some type → host.nullaryMethod? false type name = some method →
      Resolved host (.instanceMethod target { name, method := some method, overflow } site)
  | instanceCall {target : Expr} {call : Call Expr} {site : Site} :
      (∀ method, call.method = some method →
        ∃ type, target.type? = some type ∧
          host.method? false type call.name call.arity = some method ∧
          method.genericArity = call.typeArgList.length) →
      Resolved host (.instanceMethod target call site)
  | dynamicMember {target : Expr} {name : String} {site : Site} :
      Resolved host (.dynamicMember target name site)

/-- What the host answers to a question is what comes back. -/
theorem ask_ok {α : Type} {query : Query} {answer found : Option α}
    (h : (Context.ask query answer).result = .ok found) : answer = found :=
  Except.ok.inj h

/-- A target is a type that it denotes, and else a value. -/
theorem targetReceiver_cases {analyze : Analyzer} {context : Context} {target : Form}
    {receiver : Receiver Expr}
    (h : (targetReceiver analyze context target).result = .ok receiver) :
    (∃ type, (formType? context false target).result = .ok (some type) ∧
        receiver = .static type) ∨
      ∃ value, (formType? context false target).result = .ok none ∧
        (analyze { context with assigning := false } target).result = .ok value ∧
        receiver = .object value := by
  obtain ⟨found, hfound, h⟩ := Logged.bind_ok h
  cases found with
  | some type => exact .inl ⟨type, hfound, (Logged.pure_ok h).symm⟩
  | none =>
    obtain ⟨value, hvalue, h⟩ := Logged.bind_ok h
    exact .inr ⟨value, hfound, hvalue, (Logged.pure_ok h).symm⟩

/-- An argument passed by reference is written with a symbol that a local variable is bound to. -/
theorem byRefLocal_eq_ok {context : Context} {form : Form} {binding : LocalBinding}
    (h : byRefLocal context form = .ok binding) :
    ∃ marker operand symbol, form.list? = some [marker, operand] ∧
      operand.symbol? = some symbol ∧ context.locals.lookup? symbol = some binding := by
  unfold byRefLocal at h
  split at h
  · rename_i marker operand hlist
    split at h
    · rename_i symbol hsymbol
      split at h
      · rename_i found hfound
        cases h
        exact ⟨marker, operand, symbol, hlist, hsymbol, hfound⟩
      · cases h
    · cases h
  · cases h

/-- An argument is passed by reference or is a value. -/
theorem argument_cases {analyze : Analyzer} {context : Context} {form : Form}
    {arg : Argument Expr} (h : (argument analyze context form).result = .ok arg) :
    (∃ binding, byRefLocal context form = .ok binding ∧
        arg = { value := .localVar binding, byRef := some binding }) ∨
      ∃ value, (analyze { context with assigning := false } form).result = .ok value ∧
        arg = { value } := by
  unfold argument at h
  split at h
  · obtain ⟨binding, hbinding, h⟩ := Logged.bind_ok h
    exact .inl ⟨binding, hbinding, (Logged.pure_ok h).symm⟩
  · obtain ⟨value, hvalue, h⟩ := Logged.bind_ok h
    exact .inr ⟨value, hvalue, (Logged.pure_ok h).symm⟩

/-- Only the target of an assignment becomes a field that is not known. -/
theorem deferredMember_cases {context : Context} {target : Expr} {name : String} {site : Site}
    {node : Access Expr} (h : (deferredMember context target name site).result = .ok node) :
    context.assigning ∧ node = .instanceField target name none site ∨
      context.assigning = false ∧ node = .dynamicMember target name site := by
  obtain ⟨_, _, h⟩ := Logged.bind_ok h
  split at h
  · rename_i hassigning
    exact .inl ⟨hassigning, (Logged.pure_ok h).symm⟩
  · rename_i hreading
    exact .inr ⟨by simpa using hreading, (Logged.pure_ok h).symm⟩

/-- The member that was found, by its kind. -/
theorem findNullary?_cases {context : Context} {isStatic : Bool} {type : HostType} {name : String}
    {propertyStyle : Bool} {member : NullaryMember}
    (h : (findNullary? context isStatic type name propertyStyle).result = .ok (some member)) :
    match member with
    | .field field => context.host.field? isStatic type name = some field
    | .property property => context.host.property? isStatic type name = some property
    | .method method => context.host.nullaryMethod? isStatic type name = some method := by
  obtain ⟨field, hfield, h⟩ := Logged.bind_ok h
  cases field with
  | some field =>
    cases Logged.pure_ok h
    exact ask_ok hfield
  | none =>
    obtain ⟨property, hproperty, h⟩ := Logged.bind_ok h
    cases property with
    | some property =>
      cases Logged.pure_ok h
      exact ask_ok hproperty
    | none =>
      dsimp only at h
      split at h
      · cases Logged.pure_ok h
      · obtain ⟨method, hmethod, h⟩ := Logged.bind_ok h
        cases method with
        | none => cases Logged.pure_ok h
        | some method =>
          cases Logged.pure_ok h
          exact ask_ok hmethod

/-- The node of a member alone that is asked for under a name: what the host answered to the first
question that it has an answer to, or without any what is left to run time. -/
inductive NullaryNode (context : Context) (name : String) (site : Site) :
    Receiver Expr → Access Expr → Prop
  | staticField {type : HostType} {field : Field} :
      context.host.field? true type name = some field →
      NullaryNode context name site (.static type) (.staticField type field site)
  | staticProperty {type : HostType} {property : Property} :
      context.host.property? true type name = some property →
      NullaryNode context name site (.static type) (.staticProperty type property site)
  | staticMethod {type : HostType} {method : Method} :
      context.host.nullaryMethod? true type name = some method →
      NullaryNode context name site (.static type)
        (.staticMethod type (nullaryCall context name method) site)
  | instanceField {target : Expr} {type : HostType} {field : Field} :
      target.type? = some type → context.host.field? false type name = some field →
      NullaryNode context name site (.object target) (.instanceField target name (some field) site)
  | instanceProperty {target : Expr} {type : HostType} {property : Property} :
      target.type? = some type → context.host.property? false type name = some property →
      NullaryNode context name site (.object target) (.instanceProperty target property site)
  | instanceMethod {target : Expr} {type : HostType} {method : Method} :
      target.type? = some type → context.host.nullaryMethod? false type name = some method →
      NullaryNode context name site (.object target)
        (.instanceMethod target (nullaryCall context name method) site)
  | deferredField {target : Expr} : context.assigning →
      NullaryNode context name site (.object target) (.instanceField target name none site)
  | dynamicMember {target : Expr} : context.assigning = false →
      NullaryNode context name site (.object target) (.dynamicMember target name site)

theorem nullaryAccess_node {context : Context} {receiver : Receiver Expr} {member : Symbol}
    {site : Site} {node : Access Expr}
    (h : (nullaryAccess context receiver member site).result = .ok node) :
    NullaryNode context (hostMemberName (splitPropertyStyle member.name).2) site receiver node := by
  unfold nullaryAccess at h
  dsimp only at h
  cases receiver with
  | static type =>
    obtain ⟨found, hfound, h⟩ := Logged.bind_ok h
    cases found with
    | none => cases h
    | some found =>
      have hhost := findNullary?_cases hfound
      cases found <;> cases Logged.pure_ok h
      · exact .staticField hhost
      · exact .staticProperty hhost
      · exact .staticMethod hhost
  | object target =>
    -- Without a type of the target there is nothing to ask the host.
    cases htype : target.type? with
    | none =>
      simp only [htype, pure_bind] at h
      rcases deferredMember_cases h with ⟨hassigning, rfl⟩ | ⟨hreading, rfl⟩
      · exact .deferredField hassigning
      · exact .dynamicMember hreading
    | some type =>
      simp only [htype] at h
      obtain ⟨found, hfound, h⟩ := Logged.bind_ok h
      cases found with
      | none =>
        rcases deferredMember_cases h with ⟨hassigning, rfl⟩ | ⟨hreading, rfl⟩
        · exact .deferredField hassigning
        · exact .dynamicMember hreading
      | some found =>
        have hhost := findNullary?_cases hfound
        cases found <;> cases Logged.pure_ok h
        · exact .instanceField htype hhost
        · exact .instanceProperty htype hhost
        · exact .instanceMethod htype hhost

theorem nullaryAccess_cases {context : Context} {receiver : Receiver Expr} {member : Symbol}
    {site : Site} {node : Access Expr}
    (h : (nullaryAccess context receiver member site).result = .ok node) :
    Resolved context.host node ∧ innerParts node = receiver.parts ∧
      node.operands = receiver.target?.toList := by
  cases nullaryAccess_node h with
  | staticField hhost => exact ⟨.staticField hhost, rfl, rfl⟩
  | staticProperty hhost => exact ⟨.staticProperty hhost, rfl, rfl⟩
  | staticMethod hhost => exact ⟨.staticNullary hhost, rfl, rfl⟩
  | instanceField htype hhost => exact ⟨.instanceField htype hhost, rfl, rfl⟩
  | instanceProperty htype hhost => exact ⟨.instanceProperty htype hhost, rfl, rfl⟩
  | instanceMethod htype hhost =>
    exact ⟨.instanceNullary htype hhost, by simp [innerParts, Receiver.parts, Call.parts_eq,
      nullaryCall, argumentsParts], rfl⟩
  | deferredField => exact ⟨.deferredField, rfl, rfl⟩
  | dynamicMember => exact ⟨.dynamicMember, rfl, rfl⟩

/-- The type that members are searched in, when it is known. -/
def Receiver.type? : Receiver Expr → Option HostType
  | .static type => some type
  | .object target => target.type?

def Receiver.isStatic : Receiver Expr → Bool
  | .static _ => true
  | .object _ => false

/-- The overload of a call is the host's answer for the searched type, if that has as many type
parameters as there are type arguments. -/
theorem findOverload?_eq_ok {context : Context} {receiver : Receiver Expr} {name : String}
    {arity typeArgCount : Nat} {method : Option Method}
    (h : (findOverload? context receiver name arity typeArgCount).result = .ok method) :
    method = (receiver.type?.bind fun type =>
      context.host.method? receiver.isStatic type name arity).filter
        (·.genericArity = typeArgCount) := by
  unfold findOverload? at h
  cases receiver with
  | static type => exact (Except.ok.inj h).symm
  | object target =>
    simp only [Receiver.type?, Receiver.isStatic]
    cases htype : target.type? with
    | none =>
      simp only [htype] at h
      exact (Except.ok.inj h).symm
    | some type =>
      simp only [htype] at h
      exact (Except.ok.inj h).symm

/-- The overload of a call is one of the receiver's type, and fits the type arguments. -/
theorem findOverload?_cases {context : Context} {receiver : Receiver Expr} {name : String}
    {arity typeArgCount : Nat} {method : Method}
    (h : (findOverload? context receiver name arity typeArgCount).result = .ok (some method)) :
    method.genericArity = typeArgCount ∧
      match receiver with
      | .static type => context.host.method? true type name arity = some method
      | .object target => ∃ type, target.type? = some type ∧
          context.host.method? false type name arity = some method := by
  obtain ⟨hfound, hcount⟩ := Option.filter_eq_some_iff.mp (findOverload?_eq_ok h).symm
  obtain ⟨type, htype, hfound⟩ := Option.bind_eq_some_iff.mp hfound
  refine ⟨by simpa using hcount, ?_⟩
  cases receiver with
  | static owner =>
    cases htype
    exact hfound
  | object target => exact ⟨type, htype, hfound⟩

/-- Every type argument that was written gives one type. -/
theorem typeArgs_length {context : Context} {clause : Option (List Form)}
    {types : Option (List HostType)}
    (h : (clause.mapM (typeArgs context)).result = .ok types) :
    types.map List.length = clause.map List.length := by
  cases clause with
  | none =>
    cases Logged.pure_ok h
    rfl
  | some forms =>
    obtain ⟨found, hfound, h⟩ := Logged.bind_ok h
    cases Logged.pure_ok h
    simp [(Logged.mapM_ok hfound).length_eq]

/-- The parts of a call: its name, its type arguments, its arguments and its overload. -/
theorem callAccess_cases {analyze : Analyzer} {context : Context} {receiver : Receiver Expr}
    {member : Form} {rest : List Form} {site : Site} {node : Access Expr}
    (h : (callAccess analyze context receiver member rest site).result = .ok node) :
    ∃ symbol tail call, callParts member rest site.span = .ok (symbol, tail) ∧
      call.name = hostMemberName symbol.name ∧
      call.typeArgs.map List.length = (splitTypeArgs tail).1.map List.length ∧
      (arguments analyze context (splitTypeArgs tail).2).result = .ok call.args ∧
      (findOverload? context receiver call.name call.arity call.typeArgList.length).result
        = .ok call.method ∧
      node = receiver.methodNode call site := by
  unfold callAccess at h
  obtain ⟨⟨symbol, tail⟩, hparts, h⟩ := Logged.bind_ok h
  dsimp only at h
  obtain ⟨types, htypes, h⟩ := Logged.bind_ok h
  obtain ⟨args, hargs, h⟩ := Logged.bind_ok h
  obtain ⟨method, hmethod, h⟩ := Logged.bind_ok h
  let call : Call Expr :=
    { name := hostMemberName symbol.name, typeArgs := types, args, method,
      overflow := context.overflow }
  refine ⟨symbol, tail, call, hparts, rfl, typeArgs_length htypes, hargs, hmethod, ?_⟩
  -- The warning changes nothing in the result.
  split at h
  · obtain ⟨_, _, h⟩ := Logged.bind_ok h
    cases receiver <;> exact (Logged.pure_ok h).symm
  · cases receiver <;> exact (Logged.pure_ok h).symm

theorem callAccess_resolved {analyze : Analyzer} {context : Context} {receiver : Receiver Expr}
    {member : Form} {rest : List Form} {site : Site} {node : Access Expr}
    (h : (callAccess analyze context receiver member rest site).result = .ok node) :
    Resolved context.host node := by
  obtain ⟨symbol, tail, call, _, _, _, _, hmethod, rfl⟩ := callAccess_cases h
  cases receiver with
  | static type =>
    refine .staticCall fun method hcall => ?_
    rw [hcall] at hmethod
    obtain ⟨hcount, hhost⟩ := findOverload?_cases hmethod
    exact ⟨hhost, hcount⟩
  | object target =>
    refine .instanceCall fun method hcall => ?_
    rw [hcall] at hmethod
    obtain ⟨hcount, type, htype, hhost⟩ := findOverload?_cases hmethod
    exact ⟨type, htype, hhost, hcount⟩

/-- An access is a member alone or a call, after its target was analyzed. -/
theorem analyzeAccess_cases {analyze : Analyzer} {context : Context} {form : Form}
    {node : Access Expr} (h : (analyzeAccess analyze context form).result = .ok node) :
    ∃ marker target member rest receiver,
      form.list? = some (marker :: target :: member :: rest) ∧
      (targetReceiver analyze context target).result = .ok receiver ∧
      ((∃ symbol, member.symbol? = some symbol ∧ rest = [] ∧
          (nullaryAccess context receiver symbol (context.site form.span)).result = .ok node) ∨
        ((member.symbol? = none ∨ rest ≠ []) ∧
          (callAccess analyze context receiver member rest (context.site form.span)).result
            = .ok node)) := by
  unfold analyzeAccess at h
  split at h
  · cases h
  · rename_i marker target member rest hlist
    obtain ⟨receiver, hreceiver, h⟩ := Logged.bind_ok h
    refine ⟨marker, target, member, rest, receiver, hlist, hreceiver, ?_⟩
    dsimp only at h
    cases hsymbol : member.symbol? with
    | none =>
      rw [hsymbol] at h
      exact .inr ⟨.inl rfl, h⟩
    | some symbol =>
      rw [hsymbol] at h
      cases rest with
      | nil => exact .inl ⟨symbol, rfl, rfl, h⟩
      | cons first rest => exact .inr ⟨.inr (by simp), h⟩
  · cases h

theorem analyzeAccess_resolved {analyze : Analyzer} {context : Context} {form : Form}
    {node : Access Expr} (h : (analyzeAccess analyze context form).result = .ok node) :
    Resolved context.host node := by
  obtain ⟨_, _, _, _, _, _, _, ⟨_, _, _, h⟩ | ⟨_, h⟩⟩ := analyzeAccess_cases h
  · exact (nullaryAccess_cases h).1
  · exact callAccess_resolved h

/-! ## Any form -/

/-- A datum means a constant, a variable or a type. -/
theorem datumExpr_cases {context : Context} {span : Span} {datum : Datum} {expr : Expr}
    (h : (datumExpr context span datum).result = .ok expr) :
    (∃ literal, expr = .constant literal) ∨
      (∃ symbol binding, context.locals.lookup? symbol = some binding ∧
        expr = .localVar binding) ∨
      (∃ name, expr = .global name) ∨ ∃ type, expr = .typeRef type := by
  cases datum with
  | symbol symbol =>
    simp only [datumExpr, symbolExpr] at h
    split at h
    · rename_i binding hbinding
      exact .inr (.inl ⟨symbol, binding, hbinding, (Logged.pure_ok h).symm⟩)
    · split at h
      · exact .inr (.inr (.inl ⟨_, (Logged.pure_ok h).symm⟩))
      · split at h
        · exact .inr (.inr (.inl ⟨_, (Logged.pure_ok h).symm⟩))
        · exact .inr (.inr (.inr ⟨_, (Logged.pure_ok h).symm⟩))
        · obtain ⟨type, _, h⟩ := Logged.bind_ok h
          cases type with
          | none => cases h
          | some type => exact .inr (.inr (.inr ⟨type, (Logged.pure_ok h).symm⟩))
  | embedded type => exact .inr (.inr (.inr ⟨type, (Logged.pure_ok h).symm⟩))
  | _ => exact .inl ⟨_, (Logged.pure_ok h).symm⟩

/-- An assignment is made of a node that can be assigned, analyzed as a target, and a value. -/
theorem assignExpr_cases {analyze : Analyzer} {context : Context} {items : List Form}
    {span : Span} {expr : Expr}
    (h : (assignExpr analyze context items span).result = .ok expr) :
    ∃ marker target value node stored, items = [marker, target, value] ∧
      (analyzeAccess analyze { context with assigning := true } target).result = .ok node ∧
      node.isAssignable ∧
      (analyze { context with assigning := false } value).result = .ok stored ∧
      expr = .assign node stored context.overflow (context.site span) := by
  unfold assignExpr at h
  split at h
  · rename_i marker target value
    split at h
    · cases h
    · obtain ⟨node, hnode, h⟩ := Logged.bind_ok h
      split at h
      · cases h
      · rename_i hassignable
        obtain ⟨stored, hstored, h⟩ := Logged.bind_ok h
        exact ⟨marker, target, value, node, stored, rfl, hnode, by simpa using hassignable,
          hstored, (Logged.pure_ok h).symm⟩
  · cases h

/-- A form is a datum, an access that is read, or an assignment. -/
theorem analyzeStep_cases {analyze : Analyzer} {context : Context} {form : Form} {expr : Expr}
    (h : (analyzeStep analyze context form).result = .ok expr) :
    (∃ datum span, form = .leaf datum span ∧ (datumExpr context span datum).result = .ok expr) ∨
      (∃ node, (analyzeAccess analyze context form).result = .ok node ∧ expr = .access node) ∨
      ∃ delimiter items span, form = .group delimiter items span ∧
        (assignExpr analyze context items span).result = .ok expr := by
  cases form with
  | leaf datum span => exact .inl ⟨datum, span, rfl, h⟩
  | group delimiter items span =>
    simp only [analyzeStep] at h
    split at h
    · obtain ⟨node, hnode, h⟩ := Logged.bind_ok h
      exact .inr (.inl ⟨node, hnode, (Logged.pure_ok h).symm⟩)
    · split at h
      · exact .inr (.inr ⟨delimiter, items, span, rfl, h⟩)
      · cases h

end Interop
