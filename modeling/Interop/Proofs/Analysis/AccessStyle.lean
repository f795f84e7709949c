import Interop.Proofs.Analysis.Inversion
import Interop.Code.Emission

/-! The ways to write an access. A call is the same in flat and in list style. A member that is asked
for in property style is never a method: where the plain name finds one, the static member is missing
and the instance member is left to run time; everywhere else nothing changes. -/

namespace Interop

/-- `(. target items...)` -/
def Form.access (dot : Span) (target : Form) (items : List Form) (span : Span) : Form :=
  .group .paren (.leaf (.symbol { name := accessMarker }) dot :: target :: items) span

theorem analyze_form_access (context : Context) (dot : Span) (target : Form) (items : List Form)
    (span : Span) :
    (analyze context (.access dot target items span)).result =
      (analyzeAccess analyze context (.access dot target items span)).result.map .access := by
  have hheaded : (Form.access dot target items span).isHeadedBy accessMarker = true := rfl
  rw [analyze_eq, ← Logged.result_map]
  unfold Form.access at hheaded ⊢
  simp only [analyzeStep, hheaded, if_true]
  rfl

/-! ## Members alone -/

def NullaryMember.isMethod : NullaryMember → Bool
  | .method _ => true
  | _ => false

namespace Context

/-- The first member of a name that the host knows. -/
def firstNullary? (context : Context) (isStatic : Bool) (type : HostType) (name : String) :
    Option NullaryMember :=
  let field? := (context.host.field? isStatic type name).map NullaryMember.field
  let property? := (context.host.property? isStatic type name).map NullaryMember.property
  let method? := (context.host.nullaryMethod? isStatic type name).map NullaryMember.method
  field?.or (property?.or method?)

/-- The first member of a name that a receiver has, as far as its type is known. -/
def memberOf? (context : Context) (receiver : Receiver Expr) (name : String) :
    Option NullaryMember :=
  receiver.type?.bind fun type => context.firstNullary? receiver.isStatic type name

/-- The node of an instance member that is left to run time. -/
def deferredNode (context : Context) (target : Expr) (name : String) (site : Site) :
    Access Expr :=
  if context.assigning then .instanceField target name none site
  else .dynamicMember target name site

/-- What an access to a member alone comes to, by the member that was found. -/
def nullaryOutcome (context : Context) (receiver : Receiver Expr) (name : String) (site : Site) :
    Option NullaryMember → Except InteropError (Access Expr)
  | some (.field field) => .ok <| match receiver with
    | .static type => .staticField type field site
    | .object target => .instanceField target name (some field) site
  | some (.property property) => .ok <| match receiver with
    | .static type => .staticProperty type property site
    | .object target => .instanceProperty target property site
  | some (.method method) => .ok (receiver.methodNode (nullaryCall context name method) site)
  | none => match receiver with
    | .static type => .error (.missingMember type.name name site.span)
    | .object target => .ok (context.deferredNode target name site)

end Context

theorem findNullary?_result (context : Context) (isStatic : Bool) (type : HostType)
    (name : String) (propertyStyle : Bool) :
    (findNullary? context isStatic type name propertyStyle).result =
      .ok ((context.firstNullary? isStatic type name).filter
        fun found => !(propertyStyle && found.isMethod)) := by
  unfold findNullary? Context.firstNullary? Context.findField? Context.findProperty?
    Context.findNullaryMethod? Context.ask
  cases context.host.field? isStatic type name with
  | some field => cases propertyStyle <;> rfl
  | none =>
    cases context.host.property? isStatic type name with
    | some property => cases propertyStyle <;> rfl
    | none => cases context.host.nullaryMethod? isStatic type name <;> cases propertyStyle <;> rfl

/-- A warning never fails. -/
theorem warn_result (context : Context) (warning : Warning) :
    (context.warn warning).result = .ok () := by
  unfold Context.warn
  split <;> rfl

theorem deferredMember_result (context : Context) (target : Expr) (name : String) (site : Site) :
    (deferredMember context target name site).result =
      .ok (context.deferredNode target name site) := by
  unfold deferredMember Context.deferredNode
  rw [Logged.result_bind, warn_result]
  show (if _ then _ else _ : Analysis _).result = _
  split <;> rfl

/-- An access to a member alone is decided by the first member of the name; in property style a method
counts as none. -/
theorem nullaryAccess_result {context : Context} {receiver : Receiver Expr} {member : Symbol}
    {site : Site} {propertyStyle : Bool} {source : String}
    (h : splitPropertyStyle member.name = (propertyStyle, source)) :
    (nullaryAccess context receiver member site).result =
      context.nullaryOutcome receiver (hostMemberName source) site
        ((context.memberOf? receiver (hostMemberName source)).filter
          fun found => !(propertyStyle && found.isMethod)) := by
  unfold nullaryAccess Context.memberOf?
  rw [h]
  dsimp only
  cases receiver with
  | static type =>
    rw [Logged.result_bind, findNullary?_result]
    simp only [Receiver.type?, Receiver.isStatic, Option.bind_some, Except.bind]
    rcases Option.filter _ _ with _ | field | property | method <;> rfl
  | object target =>
    simp only [Receiver.type?, Receiver.isStatic]
    cases target.type? with
    | none =>
      simp only [pure_bind]
      exact deferredMember_result context target _ site
    | some type =>
      dsimp only
      rw [Logged.result_bind, findNullary?_result]
      simp only [Option.bind_some, Except.bind]
      rcases Option.filter _ _ with _ | field | property | method
      · exact deferredMember_result context target _ site
      · rfl
      · rfl
      · rfl

/-! ## Property style -/

/-- The member in property style, with a hyphen in front of its name. -/
def Symbol.inPropertyStyle (member : Symbol) : Symbol := { member with name := "-" ++ member.name }

/-- A hyphen alone, or any other character in front, asks for no style. -/
theorem splitPropertyStyle_plain {name : String}
    (h : name = "-" ∨ name.toList.head? ≠ some '-') :
    splitPropertyStyle name = (false, name) := by
  unfold splitPropertyStyle
  rcases h with rfl | hhead
  · rfl
  · split
    · rename_i hname
      rw [hname] at hhead
      exact absurd rfl hhead
    · rfl

theorem splitPropertyStyle_hyphen {name : String} (h : name ≠ "") :
    splitPropertyStyle ("-" ++ name) = (true, name) := by
  have hname : ("-" ++ name).toList = '-' :: name.toList := by simp
  unfold splitPropertyStyle
  rw [hname]
  cases hchars : name.toList with
  | nil => exact absurd (String.toList_eq_nil_iff.mp hchars) h
  | cons c rest =>
    show (true, String.ofList (c :: rest)) = _
    rw [← hchars, String.ofList_toList]

/-- How the outcome of an access changes when its member is written in property style. -/
inductive InPropertyStyle (context : Context) (name : String) :
    Except InteropError Expr → Except InteropError Expr → Prop
  | error (e : InteropError) : InPropertyStyle context name (.error e) (.error e)
  | kept {node : Access Expr} : node.call? = none →
      InPropertyStyle context name (.ok (.access node)) (.ok (.access node))
  | staticMethod (type : HostType) (call : Call Expr) (site : Site) :
      InPropertyStyle context name (.ok (.access (.staticMethod type call site)))
        (.error (.missingMember type.name name site.span))
  | instanceMethod (target : Expr) (call : Call Expr) (site : Site) :
      InPropertyStyle context name (.ok (.access (.instanceMethod target call site)))
        (.ok (.access (context.deferredNode target name site)))

theorem call?_deferredNode (context : Context) (target : Expr) (name : String) (site : Site) :
    (context.deferredNode target name site).call? = none := by
  unfold Context.deferredNode
  split <;> rfl

theorem nullaryOutcome_inPropertyStyle (context : Context) (receiver : Receiver Expr)
    (name : String) (site : Site) (found : Option NullaryMember) :
    InPropertyStyle context name
      ((context.nullaryOutcome receiver name site found).map .access)
      ((context.nullaryOutcome receiver name site
        (found.filter fun found => !found.isMethod)).map .access) := by
  rcases found with _ | field | property | method
  · cases receiver with
    | static type => exact .error _
    | object target => exact .kept (call?_deferredNode context target name site)
  · cases receiver <;> exact .kept rfl
  · cases receiver <;> exact .kept rfl
  · cases receiver with
    | static type => exact .staticMethod type _ site
    | object target => exact .instanceMethod target _ site

/-- What is left in property style is no call. -/
theorem InPropertyStyle.call?_eq_none {context : Context} {name : String}
    {plain : Except InteropError Expr} {expr : Expr}
    (h : InPropertyStyle context name plain (.ok expr)) :
    ∃ node, expr = .access node ∧ node.call? = none := by
  cases h with
  | kept hcall => exact ⟨_, rfl, hcall⟩
  | instanceMethod target call site => exact ⟨_, rfl, call?_deferredNode context target name site⟩

/-- An access to a member alone comes to the member that its target has. -/
theorem analyze_member (context : Context) (dot here span : Span) (target : Form)
    {member : Symbol} {propertyStyle : Bool} {source : String}
    (h : splitPropertyStyle member.name = (propertyStyle, source)) :
    (analyze context (.access dot target [.leaf (.symbol member) here] span)).result =
      (targetReceiver analyze context target).result >>= fun receiver =>
        (context.nullaryOutcome receiver (hostMemberName source) (context.site span)
          ((context.memberOf? receiver (hostMemberName source)).filter
            fun found => !(propertyStyle && found.isMethod))).map .access := by
  have haccess : analyzeAccess analyze context
      (.access dot target [.leaf (.symbol member) here] span) =
      targetReceiver analyze context target >>= fun receiver =>
        nullaryAccess context receiver member (context.site span) := rfl
  rw [analyze_form_access, haccess, Logged.result_bind]
  cases (targetReceiver analyze context target).result with
  | error e => rfl
  | ok receiver => exact congrArg (Except.map Expr.access) (nullaryAccess_result h)

/-- **Property style only removes methods.** Over any host, an access whose member is not written in
property style already comes to the same error or node when a hyphen is put in front of its name,
unless it is a method: then the static member is missing, and the instance member is left to run time
on the same target. No access in property style is a call. -/
theorem property_style_removes_methods (context : Context) (dot here span : Span) (target : Form)
    (member : Symbol) (hname : member.name ≠ "") :
    let plain := Form.access dot target [.leaf (.symbol member) here] span
    let styled := Form.access dot target [.leaf (.symbol member.inPropertyStyle) here] span
    (member.name = "-" ∨ member.name.toList.head? ≠ some '-' →
        InPropertyStyle context (hostMemberName member.name) (analyze context plain).result
          (analyze context styled).result) ∧
      ∀ expr, (analyze context styled).result = .ok expr →
        ∃ node, expr = .access node ∧ node.call? = none := by
  intro plain styled
  have hstyled := analyze_member context dot here span target
    (show splitPropertyStyle member.inPropertyStyle.name = (true, member.name) from
      splitPropertyStyle_hyphen hname)
  simp only [Bool.true_and] at hstyled
  constructor
  · intro hplain
    have hplain := analyze_member context dot here span target (splitPropertyStyle_plain hplain)
    have hall (found : Option NullaryMember) : (found.filter fun _ => true) = found := by
      cases found <;> rfl
    simp only [Bool.false_and, Bool.not_false, hall] at hplain
    rw [hplain, hstyled]
    cases (targetReceiver analyze context target).result with
    | error e => exact .error e
    | ok receiver => exact nullaryOutcome_inPropertyStyle context receiver _ _ _
  · intro expr hexpr
    rw [hstyled] at hexpr
    obtain ⟨receiver, _, hexpr⟩ := except_bind_eq_ok_iff.mp hexpr
    have hchange := nullaryOutcome_inPropertyStyle context receiver
      (hostMemberName member.name) (context.site span)
      (context.memberOf? receiver (hostMemberName member.name))
    rw [hexpr] at hchange
    exact hchange.call?_eq_none

/-- A string with the method `ToString`, which is left to run time in property style. -/
theorem property_style_removes_methods_toString :
    let method : Method :=
      { declaring := .string, name := "ToString", params := [], returns := .string,
        isStatic := false, genericArity := 0 }
    let catalog : Catalog :=
      { entries := [("System.String", { type := .string, methods := [method] })],
        declared := ["System.String"] }
    let context : Context :=
      { host := catalog.host, names := { name := "user" }, source := "style" }
    let access (member : Symbol) : Form :=
      .access {} (.leaf (.string "x") {}) [.leaf (.symbol member) {}] {}
    let member : Symbol := { name := "ToString" }
    ∃ target call site node,
      (analyze context (access member)).result = .ok (.access (.instanceMethod target call site)) ∧
      (analyze context (access member.inPropertyStyle)).result = .ok (.access node) ∧
      node = .dynamicMember target "ToString" site ∧ node.call? = none := by
  intro method catalog context access member
  have hruns : (match (analyze context (access member)).result with
      | .ok (.access (.instanceMethod ..)) => true
      | _ => false) = true := by
    decide +kernel
  have hstyle := property_style_removes_methods context {} {} {} (.leaf (.string "x") {}) member
    (by decide)
  have hchange : InPropertyStyle context (hostMemberName "ToString")
      (analyze context (access member)).result
      (analyze context (access member.inPropertyStyle)).result := hstyle.1 (.inr (by decide))
  have hname : hostMemberName "ToString" = "ToString" := by decide +kernel
  rw [hname] at hchange
  split at hruns
  · rename_i target call site hplain
    have hstyled : (analyze context (access member.inPropertyStyle)).result =
        .ok (.access (.dynamicMember target "ToString" site)) := by
      generalize (analyze context (access member.inPropertyStyle)).result = styled at hchange ⊢
      rw [hplain] at hchange
      cases hchange with
      | kept hcall => cases hcall
      | instanceMethod => rfl
    obtain ⟨node, hnode, hcall⟩ := hstyle.2 _ hstyled
    cases hnode
    exact ⟨target, call, site, _, hplain, hstyled, rfl, hcall⟩
  · cases hruns

/-! ## Flat and list style -/

/-- Two outcomes of a call that is written at two places. -/
abbrev SameCall (receiver : Receiver Expr) (site site' : Site) :
    Except InteropError (Access Expr) → Except InteropError (Access Expr) → Prop :=
  SameOutcome fun node node' => ∃ call, node = receiver.methodNode call site ∧
    node' = receiver.methodNode call site'

/-- A call is decided by its method name and by what follows it. -/
theorem callAccess_sameCall (a : Analyzer) (context : Context) (receiver : Receiver Expr)
    {member member' : Form} {rest rest' : List Form} (site site' : Site)
    (hparts : callParts member' rest' site'.span = callParts member rest site.span) :
    SameCall receiver site site' (callAccess a context receiver member rest site).result
      (callAccess a context receiver member' rest' site').result := by
  have hnode (call : Call Expr) : SameCall receiver site site'
      (.ok (receiver.methodNode call site)) (.ok (receiver.methodNode call site')) :=
    .ok ⟨call, rfl, rfl⟩
  unfold callAccess
  refine Logged.sameOutcome_bind (by rw [hparts]) fun parts => ?_
  refine Logged.sameOutcome_bind rfl fun types => ?_
  refine Logged.sameOutcome_bind rfl fun args => ?_
  refine Logged.sameOutcome_bind rfl fun method => ?_
  -- The warning names the place of the call, and changes nothing in the result.
  have hwarn (warning warning' : Warning) :
      (context.warn warning').result = (context.warn warning).result :=
    (warn_result context warning').trans (warn_result context warning).symm
  cases receiver with
  | static type =>
    dsimp only
    split
    · exact Logged.sameOutcome_bind (hwarn _ _) fun _ => hnode _
    · exact hnode _
  | object target =>
    dsimp only
    split
    · exact Logged.sameOutcome_bind (hwarn _ _) fun _ => hnode _
    · exact hnode _

theorem emit_methodNode (receiver : Receiver Expr) (call : Call Expr) (site site' : Site) :
    (Expr.access (receiver.methodNode call site')).emit =
      (Expr.access (receiver.methodNode call site)).emit := by
  cases receiver <;> simp only [Receiver.methodNode, Expr.emit, emitAccess]

/-- **Flat and list style agree.** With at least one form behind the method name, type arguments
included, `(. target member tail...)` and `(. target (member tail...))` come to the same error, or to
one call on one receiver at the place of the form that it is written in. The code is the same. -/
theorem call_styles_agree (context : Context) (target : Form) (member : Symbol) (first : Form)
    (rest : List Form) (dot dot' here here' inner span span' : Span) :
    let tail := first :: rest
    let flat := Form.access dot target (.leaf (.symbol member) here :: tail) span
    let listed := Form.access dot' target
      [.group .paren (.leaf (.symbol member) here' :: tail) inner] span'
    SameOutcome (fun expr expr' => (∃ (receiver : Receiver Expr) (call : Call Expr),
        expr = .access (receiver.methodNode call (context.site span)) ∧
        expr' = .access (receiver.methodNode call (context.site span'))) ∧
        expr'.emit = expr.emit)
      (analyze context flat).result (analyze context listed).result := by
  intro tail flat listed
  have hflat : analyzeAccess analyze context flat =
      targetReceiver analyze context target >>= fun receiver =>
        callAccess analyze context receiver (.leaf (.symbol member) here) tail
          (context.site span) := rfl
  have hlisted : analyzeAccess analyze context listed =
      targetReceiver analyze context target >>= fun receiver =>
        callAccess analyze context receiver
          (.group .paren (.leaf (.symbol member) here' :: tail) inner) [] (context.site span') := rfl
  rw [analyze_form_access, analyze_form_access, hflat, hlisted, Logged.result_bind,
    Logged.result_bind]
  cases (targetReceiver analyze context target).result with
  | error e => exact .error e
  | ok receiver =>
    have hcall := callAccess_sameCall analyze context receiver (context.site span)
      (context.site span')
      (show callParts (.group .paren (.leaf (.symbol member) here' :: tail) inner) [] span' =
        callParts (.leaf (.symbol member) here) tail span from rfl)
    refine hcall.map fun node node' hnodes => ?_
    obtain ⟨call, rfl, rfl⟩ := hnodes
    exact ⟨⟨receiver, call, rfl, rfl⟩, emit_methodNode receiver call _ _⟩

end Interop
