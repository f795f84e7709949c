import Interop.Proofs.Analysis.Inversion
import Interop.Proofs.Expr.Nodes

/-! Warnings. An analysis warns of a node exactly if the member of the node has to be found at run
time, once and when the node has been analyzed, so the warnings can be read off the result. Whether
it warns makes no difference to the result. -/

namespace Interop

/-! ## Warnings in a log -/

def Event.warning? : Event → Option Warning
  | .warning given => some given
  | .query .. | .visit .. => none

/-- The warnings of an analysis, in order. -/
def warnings {α : Type} (x : Analysis α) : List Warning := x.log.filterMap Event.warning?

/-- The context with warnings or without them. -/
def Context.withWarnings (context : Context) (flag : Bool) : Context :=
  { context with warnOnReflection := flag }

section

variable (context : Context) (flag : Bool)

theorem Context.withWarnings_locals : (context.withWarnings flag).locals = context.locals := rfl

theorem Context.withWarnings_names : (context.withWarnings flag).names = context.names := rfl

theorem Context.withWarnings_assigning :
    (context.withWarnings flag).assigning = context.assigning := rfl

end

/-- What there is to warn of in a node. -/
def Access.warning (node : Access Expr) : Warning :=
  match node.call? with
  | some call => .call node.site node.memberName call.arity
  | none => .member node.site node.memberName

/-- The warnings of the nodes whose members have to be found at run time. -/
def reflectionWarnings (nodes : List (Access Expr)) : List Warning :=
  (nodes.filter Access.isReflective).map Access.warning

@[simp] theorem reflectionWarnings_append (nodes more : List (Access Expr)) :
    reflectionWarnings (nodes ++ more) = reflectionWarnings nodes ++ reflectionWarnings more := by
  simp [reflectionWarnings]

theorem reflectionWarnings_of_resolved {node : Access Expr} (h : node.isReflective = false) :
    reflectionWarnings [node] = [] := by
  simp [reflectionWarnings, h]

/-! ## Analyses with and without warnings -/

/-- Two analyses of the same, of which only the first one warns. The warnings so far, before it,
become what is owed for its result. -/
structure Warned {α : Type} (before : List Warning) (x y : Analysis α)
    (owed : α → List Warning) : Prop where
  silent : warnings y = []
  same : y.result = x.result
  given : ∀ a, x.result = .ok a → before ++ warnings x = owed a

namespace Warned

variable {α β : Type} {before : List Warning} {x y : Analysis α} {owed : α → List Warning}

theorem pure {a : α} (h : before = owed a) : Warned before (Pure.pure a) (Pure.pure a) owed where
  silent := rfl
  same := rfl
  given := by
    intro a' ha
    rw [← Logged.pure_ok ha, ← h]
    exact List.append_nil before

theorem fail (e : InteropError) : Warned before (Logged.fail e) (Logged.fail e) owed :=
  ⟨rfl, rfl, nofun⟩

theorem ask (query : Query) (answer : Option α) :
    Warned before (Context.ask query answer) (Context.ask query answer) fun _ => before :=
  ⟨rfl, rfl, fun _ _ => List.append_nil before⟩

theorem ofExcept (result : Except InteropError α) :
    Warned before (Logged.ofExcept result) (Logged.ofExcept result) fun _ => before :=
  ⟨rfl, rfl, fun _ _ => List.append_nil before⟩

theorem warn (context : Context) (warning : Warning) :
    Warned before ((context.withWarnings true).warn warning)
      ((context.withWarnings false).warn warning) fun _ => before ++ [warning] :=
  ⟨rfl, rfl, fun _ _ => rfl⟩

theorem bind {f g : α → Analysis β} {total : β → List Warning} (hfirst : Warned before x y owed)
    (hrest : ∀ a, x.result = .ok a → Warned (owed a) (f a) (g a) total) :
    Warned before (x >>= f) (y >>= g) total := by
  obtain ⟨hsilent, hsame, hgiven⟩ := hfirst
  rcases x with ⟨log, e | a⟩ <;> rcases y with ⟨log', result⟩ <;> cases hsame
  · exact ⟨hsilent, rfl, nofun⟩
  · obtain ⟨hsilent', hsame', hgiven'⟩ := hrest a rfl
    refine ⟨?_, hsame', fun b hb => ?_⟩
    · show (log' ++ (g a).log).filterMap Event.warning? = []
      rw [List.filterMap_append]
      exact List.append_eq_nil_iff.mpr ⟨hsilent, hsilent'⟩
    · show before ++ (log ++ (f a).log).filterMap Event.warning? = total b
      rw [List.filterMap_append, ← List.append_assoc]
      rw [← hgiven' b hb, ← hgiven a rfl]
      rfl

/-- What is owed may be written in another way for the results that there are. -/
theorem congr {total : α → List Warning} (h : Warned before x y owed)
    (hsame : ∀ a, x.result = .ok a → owed a = total a) : Warned before x y total :=
  ⟨h.silent, h.same, fun a ha => (h.given a ha).trans (hsame a ha)⟩

theorem mapError (h : Warned before x y owed) (f : InteropError → InteropError) :
    Warned before (x.mapError f) (y.mapError f) owed := by
  obtain ⟨hsilent, hsame, hgiven⟩ := h
  refine ⟨hsilent, congrArg (Except.mapError f) hsame, fun a ha => hgiven a ?_⟩
  rcases x with ⟨log, e | a'⟩
  · cases ha
  · exact ha

theorem mapM {f g : α → Analysis β} {items : List α} {each : β → List Warning}
    (h : ∀ item ∈ items, ∀ before, Warned before (f item) (g item) fun b => before ++ each b) :
    Warned before (items.mapM f) (items.mapM g) fun results => before ++ results.flatMap each := by
  induction items generalizing before with
  | nil => exact .pure (List.append_nil before).symm
  | cons item items ih =>
    have hitems := fun before => @ih before fun other hother =>
      h other (List.mem_cons_of_mem item hother)
    rw [List.mapM_cons, List.mapM_cons]
    refine (h item List.mem_cons_self before).bind fun b _ => ?_
    refine (hitems (before ++ each b)).bind fun results _ => .pure ?_
    rw [List.flatMap_cons, List.append_assoc]

end Warned

section

variable (before : List Warning) (context : Context)

/-! ## Names of types -/

theorem lookupArray_warned (span : Span) (base : String) (rank : Nat) :
    Warned before (lookupArray (context.withWarnings true) span base rank)
      (lookupArray (context.withWarnings false) span base rank) fun _ => before := by
  induction rank with
  | zero =>
    refine (Warned.ask (.type base) (context.host.type? base)).bind fun found _ => ?_
    cases found with
    | some type => exact .pure rfl
    | none => exact .fail _
  | succ rank ih =>
    refine (Warned.ask (.type _) (context.host.type? (arrayName base (rank + 1)))).bind
      fun found _ => ?_
    cases found with
    | some type => exact .pure rfl
    | none =>
      dsimp only
      split
      · exact .pure rfl
      · split
        · exact ih.bind fun type _ => .pure rfl
        · rw [context.withWarnings_names, context.withWarnings_names]
          split
          · exact .pure rfl
          · exact .fail _

theorem lookupType_warned (name : String) (span : Span) :
    Warned before (lookupType (context.withWarnings true) name span)
      (lookupType (context.withWarnings false) name span) fun _ => before :=
  lookupArray_warned before context span _ _

theorem symbolType?_warned (symbol : Symbol) (span : Span) :
    Warned before (symbolType? (context.withWarnings true) symbol span)
      (symbolType? (context.withWarnings false) symbol span) fun _ => before := by
  unfold symbolType?
  rw [context.withWarnings_locals, context.withWarnings_locals, context.withWarnings_names,
    context.withWarnings_names]
  split
  · exact .pure rfl
  · split
    · exact (lookupType_warned before context symbol.name span).bind fun type _ => .pure rfl
    · split
      · exact .pure rfl
      · exact .pure rfl
      · exact .ask (.type symbol.name) (context.host.type? symbol.name)

theorem formType?_warned (allowString : Bool) (form : Form) :
    Warned before (formType? (context.withWarnings true) allowString form)
      (formType? (context.withWarnings false) allowString form) fun _ => before := by
  unfold formType?
  split
  · exact .pure rfl
  · exact symbolType?_warned before context _ _
  · split
    · exact (lookupType_warned before context _ _).bind fun type _ => .pure rfl
    · exact .pure rfl
  · exact .pure rfl

theorem tagType_warned (form : Form) :
    Warned before (tagType (context.withWarnings true) form)
      (tagType (context.withWarnings false) form) fun _ => before := by
  unfold tagType
  dsimp only
  split
  · exact .pure rfl
  · refine (formType?_warned before context true form).bind fun found _ => ?_
    cases found with
    | some type => exact .pure rfl
    | none => exact .fail _

/-! ## Data -/

theorem symbolExpr_warned (symbol : Symbol) (span : Span) :
    Warned before (symbolExpr (context.withWarnings true) symbol span)
      (symbolExpr (context.withWarnings false) symbol span)
      fun expr => before ++ reflectionWarnings expr.nodes := by
  have hnothing := (List.append_nil before).symm
  unfold symbolExpr
  rw [context.withWarnings_locals, context.withWarnings_locals, context.withWarnings_names,
    context.withWarnings_names]
  split
  · exact .pure hnothing
  · split
    · exact .pure hnothing
    · split
      · exact .pure hnothing
      · exact .pure hnothing
      · refine (symbolType?_warned before context symbol span).bind fun found _ => ?_
        cases found with
        | some type => exact .pure hnothing
        | none => exact .fail _

theorem datumExpr_warned (span : Span) (datum : Datum) :
    Warned before (datumExpr (context.withWarnings true) span datum)
      (datumExpr (context.withWarnings false) span datum)
      fun expr => before ++ reflectionWarnings expr.nodes := by
  cases datum with
  | symbol symbol => exact symbolExpr_warned before context symbol span
  | _ => exact .pure (List.append_nil before).symm

/-! ## Arguments and targets -/

theorem typeArg_warned (form : Form) :
    Warned before (typeArg (context.withWarnings true) form)
      (typeArg (context.withWarnings false) form) fun _ => before := by
  unfold typeArg
  dsimp only
  split
  · exact (tagType_warned before context form).mapError _
  · exact .fail _

theorem typeArgs_warned (forms : List Form) :
    Warned before (typeArgs (context.withWarnings true) forms)
      (typeArgs (context.withWarnings false) forms) fun _ => before := by
  have heach : ∀ form ∈ forms, ∀ before,
      Warned before (typeArg (context.withWarnings true) form)
        (typeArg (context.withWarnings false) form) fun _ => before ++ [] := by
    intro form _ before
    rw [List.append_nil]
    exact typeArg_warned before context form
  refine (Warned.mapM heach).congr fun types _ => ?_
  simp

/-- An analyzer that warns of exactly the nodes that it leaves to run time. -/
def Warns (analyze : Analyzer) : Prop :=
  ∀ before (context : Context) form, Warned before (analyze (context.withWarnings true) form)
    (analyze (context.withWarnings false) form) fun expr => before ++ reflectionWarnings expr.nodes

variable {analyze : Analyzer} (h : Warns analyze)

include h

theorem argument_warned (form : Form) :
    Warned before (argument analyze (context.withWarnings true) form)
      (argument analyze (context.withWarnings false) form)
      fun arg => before ++ reflectionWarnings arg.value.nodes := by
  unfold argument
  split
  · refine (Warned.ofExcept (byRefLocal context form)).bind fun binding _ => .pure ?_
    exact (List.append_nil before).symm
  · exact (h before { context with assigning := false } form).bind fun value _ => .pure rfl

theorem arguments_warned (forms : List Form) :
    Warned before (arguments analyze (context.withWarnings true) forms)
      (arguments analyze (context.withWarnings false) forms)
      fun args => before ++ reflectionWarnings (argsNodes args) := by
  have heach : ∀ form ∈ forms, ∀ before,
      Warned before (argument analyze (context.withWarnings true) form)
        (argument analyze (context.withWarnings false) form)
        fun arg => before ++ reflectionWarnings arg.value.nodes :=
    fun form _ before => argument_warned before context h form
  refine (Warned.mapM heach).congr fun args _ => ?_
  rw [argsNodes_eq]
  simp [reflectionWarnings, List.filter_flatMap, List.map_flatMap, List.flatMap_map]

theorem targetReceiver_warned (target : Form) :
    Warned before (targetReceiver analyze (context.withWarnings true) target)
      (targetReceiver analyze (context.withWarnings false) target)
      fun receiver => before ++ reflectionWarnings receiver.nodes := by
  unfold targetReceiver
  refine (formType?_warned before context false target).bind fun found _ => ?_
  cases found with
  | some type => exact .pure (List.append_nil before).symm
  | none => exact (h before { context with assigning := false } target).bind fun _ _ => .pure rfl

end

/-! ## Members -/

section

variable (before : List Warning) (context : Context)

theorem findNullary?_warned (isStatic : Bool) (type : HostType) (name : String)
    (propertyStyle : Bool) :
    Warned before (findNullary? (context.withWarnings true) isStatic type name propertyStyle)
      (findNullary? (context.withWarnings false) isStatic type name propertyStyle)
      fun _ => before := by
  unfold findNullary?
  refine (Warned.ask (.field ..) (context.host.field? ..)).bind fun field _ => ?_
  cases field with
  | some field => exact .pure rfl
  | none =>
    refine (Warned.ask (.property ..) (context.host.property? ..)).bind fun property _ => ?_
    cases property with
    | some property => exact .pure rfl
    | none =>
      cases propertyStyle with
      | true => exact .pure rfl
      | false =>
        exact (Warned.ask (.nullaryMethod ..) (context.host.nullaryMethod? ..)).bind
          fun method _ => .pure rfl

/-- A member that is not known is warned of. -/
theorem deferredMember_warned (target : Expr) (name : String) (site : Site) :
    Warned before (deferredMember (context.withWarnings true) target name site)
      (deferredMember (context.withWarnings false) target name site)
      fun node => before ++ reflectionWarnings [node] := by
  unfold deferredMember
  rw [context.withWarnings_assigning, context.withWarnings_assigning]
  refine (Warned.warn context (.member site name)).bind fun _ _ => ?_
  split
  · exact .pure rfl
  · exact .pure rfl

/-- What is owed for a node that is resolved is owed for its target already. -/
theorem owed_of_resolved {receiver : Receiver Expr} {node : Access Expr}
    (hinner : innerNodes node = receiver.nodes) (hnode : node.isReflective = false) :
    before ++ reflectionWarnings receiver.nodes =
      before ++ reflectionWarnings (innerNodes node ++ [node]) := by
  rw [reflectionWarnings_append, reflectionWarnings_of_resolved hnode, List.append_nil, hinner]

theorem nullaryAccess_warned (receiver : Receiver Expr) (member : Symbol) (site : Site) :
    Warned (before ++ reflectionWarnings receiver.nodes)
      (nullaryAccess (context.withWarnings true) receiver member site)
      (nullaryAccess (context.withWarnings false) receiver member site)
      fun node => before ++ reflectionWarnings (innerNodes node ++ [node]) := by
  have hdeferred (target : Expr) (name : String) :
      Warned (before ++ reflectionWarnings target.nodes)
        (deferredMember (context.withWarnings true) target name site)
        (deferredMember (context.withWarnings false) target name site)
        fun node => before ++ reflectionWarnings (innerNodes node ++ [node]) := by
    refine (deferredMember_warned _ context target name site).congr fun node hnode => ?_
    rw [reflectionWarnings_append, ← List.append_assoc]
    rcases deferredMember_cases hnode with ⟨-, rfl⟩ | ⟨-, rfl⟩ <;> rfl
  unfold nullaryAccess
  dsimp only
  cases receiver with
  | static type =>
    refine (findNullary?_warned _ context true type _ _).bind fun found _ => ?_
    rcases found with _ | field | property | method
    · exact .fail _
    · exact .pure (owed_of_resolved before rfl rfl)
    · exact .pure (owed_of_resolved before rfl rfl)
    · exact .pure (owed_of_resolved before rfl rfl)
  | object target =>
    dsimp only
    cases target.type? with
    | none =>
      simp only [pure_bind]
      exact hdeferred target _
    | some type =>
      refine (findNullary?_warned _ context false type _ _).bind fun found _ => ?_
      rcases found with _ | field | property | method
      · exact hdeferred target _
      · exact .pure (owed_of_resolved before rfl rfl)
      · exact .pure (owed_of_resolved before rfl rfl)
      · exact .pure (owed_of_resolved before (List.append_nil _) rfl)

/-! ## Calls -/

theorem findOverload?_warned (receiver : Receiver Expr) (name : String) (arity : Nat)
    (typeArgCount : Nat) :
    Warned before (findOverload? (context.withWarnings true) receiver name arity typeArgCount)
      (findOverload? (context.withWarnings false) receiver name arity typeArgCount)
      fun _ => before := by
  unfold findOverload?
  cases receiver with
  | static type =>
    exact (Warned.ask (.method ..) (context.host.method? ..)).bind fun found _ => .pure rfl
  | object target =>
    dsimp only
    cases target.type? with
    | none => exact .pure rfl
    | some type =>
      exact (Warned.ask (.method ..) (context.host.method? ..)).bind fun found _ => .pure rfl

theorem owed_methodNode (receiver : Receiver Expr) (call : Call Expr) (site : Site) :
    before ++ reflectionWarnings receiver.nodes ++ reflectionWarnings (argsNodes call.args) ++
        reflectionWarnings [receiver.methodNode call site] =
      before ++ reflectionWarnings
        (innerNodes (receiver.methodNode call site) ++ [receiver.methodNode call site]) := by
  simp only [innerNodes_methodNode, reflectionWarnings_append, List.append_assoc]

variable {analyze : Analyzer} (h : Warns analyze)

include h

/-- A call is warned of after its arguments. -/
theorem callAccess_warned (receiver : Receiver Expr) (member : Form) (rest : List Form)
    (site : Site) :
    Warned (before ++ reflectionWarnings receiver.nodes)
      (callAccess analyze (context.withWarnings true) receiver member rest site)
      (callAccess analyze (context.withWarnings false) receiver member rest site)
      fun node => before ++ reflectionWarnings (innerNodes node ++ [node]) := by
  unfold callAccess
  refine (Warned.ofExcept (callParts member rest site.span)).bind fun parts _ => ?_
  obtain ⟨symbol, tail⟩ := parts
  dsimp only
  have htypes : Warned (before ++ reflectionWarnings receiver.nodes)
      ((splitTypeArgs tail).1.mapM (typeArgs (context.withWarnings true)))
      ((splitTypeArgs tail).1.mapM (typeArgs (context.withWarnings false)))
      fun _ => before ++ reflectionWarnings receiver.nodes := by
    cases (splitTypeArgs tail).1 with
    | none => exact .pure rfl
    | some forms => exact (typeArgs_warned _ context forms).bind fun types _ => .pure rfl
  refine htypes.bind fun types _ => ?_
  refine (arguments_warned _ context h (splitTypeArgs tail).2).bind fun args _ => ?_
  refine (findOverload?_warned _ context receiver _ _ _).bind fun method _ => ?_
  let call : Call Expr :=
    { name := hostMemberName symbol.name, typeArgs := types, args, method,
      overflow := context.overflow }
  have howed := owed_methodNode before receiver call site
  cases method with
  | none =>
    refine (Warned.warn context (.call site call.name args.length)).bind fun _ _ => ?_
    cases receiver <;> exact .pure howed
  | some method => cases receiver <;> exact .pure ((List.append_nil _).symm.trans howed)

/-! ## Forms -/

theorem analyzeAccess_warned (form : Form) :
    Warned before (analyzeAccess analyze (context.withWarnings true) form)
      (analyzeAccess analyze (context.withWarnings false) form)
      fun node => before ++ reflectionWarnings (innerNodes node ++ [node]) := by
  unfold analyzeAccess
  rcases form.list? with _ | _ | ⟨marker, _ | ⟨target, _ | ⟨member, rest⟩⟩⟩
  · exact .fail _
  · exact .fail _
  · exact .fail _
  · exact .fail _
  · refine (targetReceiver_warned before context h target).bind fun receiver _ => ?_
    have hcall := callAccess_warned before context h receiver member rest (context.site form.span)
    dsimp only
    cases member.symbol? with
    | none => exact hcall
    | some symbol =>
      cases rest with
      | nil => exact nullaryAccess_warned before context receiver symbol (context.site form.span)
      | cons first rest => exact hcall

/-- The target of an assignment is warned of before the value is analyzed. -/
theorem assignExpr_warned (items : List Form) (span : Span) :
    Warned before (assignExpr analyze (context.withWarnings true) items span)
      (assignExpr analyze (context.withWarnings false) items span)
      fun expr => before ++ reflectionWarnings expr.nodes := by
  unfold assignExpr
  rcases items with _ | ⟨marker, _ | ⟨target, _ | ⟨value, _ | ⟨extra, rest⟩⟩⟩⟩
  · exact .fail _
  · exact .fail _
  · exact .fail _
  · dsimp only
    split
    · exact .fail _
    · have htarget := analyzeAccess_warned before { context with assigning := true } h target
      refine htarget.bind fun node _ => ?_
      split
      · exact .fail _
      · refine (h _ { context with assigning := false } value).bind fun stored _ => .pure ?_
        rw [List.append_assoc, ← reflectionWarnings_append, List.append_assoc]
        rfl
  · exact .fail _

theorem analyzeStep_warns : Warns (analyzeStep analyze) := by
  intro before context form
  cases form with
  | leaf datum span => exact datumExpr_warned before context span datum
  | group delimiter items span =>
    simp only [analyzeStep]
    split
    · exact (analyzeAccess_warned before context h _).bind fun node _ => .pure rfl
    · split
      · exact assignExpr_warned before context h items span
      · exact .fail _

end

theorem analyzeUpTo_warns (depth : Nat) : Warns (analyzeUpTo depth) := by
  induction depth with
  | zero => exact analyzeStep_warns fun _ _ _ => .fail _
  | succ depth ih => exact analyzeStep_warns ih

theorem analyze_warns : Warns analyze :=
  fun before context form => analyzeUpTo_warns form.depth before context form

/-- **Warnings are the reflective nodes.** If a form is analyzed with warnings, there is one for
each node of the result whose member is left to run time, in the order of the nodes, inner ones
first; it has the site and the member of the node. Without warnings there is none, and the result is
the same. -/
theorem analyze_warnings (context : Context) (form : Form) :
    (∀ expr, (analyze (context.withWarnings true) form).result = .ok expr →
        warnings (analyze (context.withWarnings true) form) =
          (expr.nodes.filter Access.isReflective).map Access.warning) ∧
      warnings (analyze (context.withWarnings false) form) = [] ∧
      (analyze (context.withWarnings false) form).result =
        (analyze (context.withWarnings true) form).result := by
  have hwarned := analyze_warns [] context form
  exact ⟨fun expr hexpr => hwarned.given expr hexpr, hwarned.silent, hwarned.same⟩

/-- `(set! (. (. x A) B) (. x C (. x D)))`, with nothing known of `x`. -/
theorem analyze_warnings_nested :
    let word (name : String) : Form := .leaf (.symbol { name }) {}
    let list (items : List Form) : Form := .group .paren items {}
    let access (items : List Form) : Form := list (word "." :: word "x" :: items)
    let target := list [word ".", access [word "A"], word "B"]
    let form := list [word "set!", target, access [word "C", access [word "D"]]]
    let context : Context :=
      { host := Catalog.empty.host, names := { name := "user" }, source := "nested"
        locals := LexicalEnv.bind {} "x" none }
    let site : Site := { source := "nested", span := {} }
    ∃ expr, (analyze (context.withWarnings true) form).result = .ok expr ∧
      (expr.nodes.filter Access.isReflective).map Access.warning =
        [.member site "A", .member site "B", .member site "D", .call site "C" 1] := by
  intro word list access target form context site
  obtain ⟨expr, hexpr⟩ := except_isOk_iff.mp
    (show (analyze (context.withWarnings true) form).result.isOk by decide +kernel)
  refine ⟨expr, hexpr, ?_⟩
  rw [← (analyze_warnings context form).1 expr hexpr]
  decide +kernel

end Interop
