import Interop.Proofs.Analysis.ArrayName
import Interop.Proofs.Analysis.Inversion

/-! Analysis over a host that learns new types. A host that answers the old questions about the
types it knew, and knows more dotted names, turns no success into another: whatever could be
analyzed is analyzed to the same expression, by the same questions. -/

namespace Interop

def Context.over (context : Context) (host : Host) : Context := { context with host }

@[simp] theorem Context.over_locals (context : Context) (host : Host) :
    (context.over host).locals = context.locals := rfl

@[simp] theorem Context.over_names (context : Context) (host : Host) :
    (context.over host).names = context.names := rfl

@[simp] theorem Context.over_overflow (context : Context) (host : Host) :
    (context.over host).overflow = context.overflow := rfl

@[simp] theorem Context.warn_over (context : Context) (host : Host) (warning : Warning) :
    (context.over host).warn warning = context.warn warning := rfl

/-- The second host knows what the first one knows, and more dotted names. Types that are `known`
are those that the first host gives back, by whatever name, and what the members of these have
in their signatures. -/
structure Host.Grows (known : HostType → Prop) (h h' : Host) : Prop where
  literal : ∀ literal type, Literal.type? literal = some type → known type
  tag : ∀ tag type, primitiveTag? tag = some type → known type
  array : ∀ type, known type → known (.array type)
  type : ∀ name type, h.type? name = some type → known type
  /-- New names are dotted, and neither they nor their arrays had a meaning before. -/
  names : ∀ base, (splitArrayName base).2 = 0 →
    (∀ rank, h'.type? (arrayName base rank) = h.type? (arrayName base rank)) ∨
      isDotted base ∧ ∀ rank, h.type? (arrayName base rank) = none
  field : ∀ isStatic type name, known type →
    h'.field? isStatic type name = h.field? isStatic type name
  property : ∀ isStatic type name, known type →
    h'.property? isStatic type name = h.property? isStatic type name
  nullaryMethod : ∀ isStatic type name, known type →
    h'.nullaryMethod? isStatic type name = h.nullaryMethod? isStatic type name
  method : ∀ isStatic type name arity, known type →
    h'.method? isStatic type name arity = h.method? isStatic type name arity
  fieldType : ∀ isStatic type name field, h.field? isStatic type name = some field →
    known field.type
  propertyType : ∀ isStatic type name property,
    h.property? isStatic type name = some property → known property.type
  nullaryReturns : ∀ isStatic type name method,
    h.nullaryMethod? isStatic type name = some method → known method.returns
  methodReturns : ∀ isStatic type name arity method,
    h.method? isStatic type name arity = some method → known method.returns

/-- The types that a context brings along are known: those of its aliases and the tags of its
local variables. -/
structure Context.Brings (known : HostType → Prop) (context : Context) : Prop where
  aliases : ∀ name type, context.names.lookup? name = some (.type type) → known type
  tags : ∀ symbol binding, context.locals.lookup? symbol = some binding →
    ∀ type, binding.tag = some type → known type

/-- The types that were put in place of symbols in a form are known. -/
def Form.Embeds (known : HostType → Prop) (form : Form) : Prop :=
  ∀ type span, (Form.leaf (.embedded type) span).Inside form → known type

theorem Form.Embeds.leaf {known : HostType → Prop} {datum : Datum} {span : Span}
    (h : ∀ type, datum = .embedded type → known type) : (Form.leaf datum span).Embeds known := by
  intro type span' hinside
  cases hinside with
  | self => exact h type rfl

theorem Form.Embeds.group {known : HostType → Prop} {delimiter : Delimiter} {items : List Form}
    {span : Span} (h : ∀ item ∈ items, item.Embeds known) :
    (Form.group delimiter items span).Embeds known := by
  intro type span' hinside
  cases hinside with
  | item hmem hinner => exact h _ hmem type span' hinner

theorem Form.Embeds.inside {known : HostType → Prop} {form inner : Form} (h : form.Embeds known)
    (hinner : inner.Inside form) : inner.Embeds known :=
  fun type span hinside => h type span (hinside.trans hinner)

open Logged

section

variable {known : HostType → Prop} {h h' : Host} {context : Context}

/-! ## Types by name -/

/-- A dotted name that the host does not know denotes nothing, with or without suffixes. -/
theorem lookupArray_unknown {span : Span} {base : String} (hdotted : isDotted base)
    (hnone : ∀ rank, context.host.type? (arrayName base rank) = none) (rank : Nat)
    (type : HostType) : (lookupArray context span base rank).result ≠ .ok type := by
  induction rank generalizing type with
  | zero =>
    have hbase : context.host.type? base = none := hnone 0
    simp only [lookupArray, Context.findType?, hbase]
    nofun
  | succ rank ih =>
    have htag := primitiveTag?_of_isDotted (isDotted_arrayName hdotted rank)
    simp only [lookupArray, Context.findType?, hnone, htag, isDotted_arrayName hdotted rank,
      Bool.true_or, if_true]
    intro hfound
    obtain ⟨answer, hanswer, hfound⟩ := Logged.bind_ok hfound
    obtain rfl := ask_ok hanswer
    obtain ⟨element, helement, -⟩ := Logged.bind_ok hfound
    exact ih element helement

theorem lookupArray_persists (hgrows : Host.Grows known h h') (span : Span) {base : String}
    (hbase : (splitArrayName base).2 = 0) (rank : Nat) :
    Persists (lookupArray (context.over h) span base rank)
      (lookupArray (context.over h') span base rank) := by
  rcases hgrows.names base hbase with hsame | ⟨hdotted, hnone⟩
  · induction rank with
    | zero =>
      have hname : h'.type? base = h.type? base := hsame 0
      simp only [lookupArray, Context.findType?, Context.over, hname]
      exact .refl _
    | succ rank ih =>
      simp only [lookupArray, Context.findType?]
      rw [show (context.over h').host.type? (arrayName base (rank + 1)) =
        (context.over h).host.type? (arrayName base (rank + 1)) from hsame (rank + 1)]
      refine Persists.bind (.refl _) fun found _ => ?_
      cases found with
      | some type => exact .refl _
      | none =>
        dsimp only
        cases primitiveTag? (arrayName base rank) with
        | some type => exact .refl _
        | none =>
          dsimp only
          split
          · exact ih.bind fun type _ => .refl _
          · exact .refl _
  · intro type htype
    exact absurd htype (lookupArray_unknown hdotted hnone rank type)

theorem lookupArray_known (hgrows : Host.Grows known h h') (hbrings : context.Brings known)
    {span : Span} {base : String} {rank : Nat} {type : HostType}
    (hfound : (lookupArray (context.over h) span base rank).result = .ok type) : known type := by
  induction rank generalizing type with
  | zero =>
    obtain ⟨answer, hanswer, hfound⟩ := Logged.bind_ok hfound
    cases answer with
    | none => cases hfound
    | some found =>
      cases Logged.pure_ok hfound
      exact hgrows.type _ _ (ask_ok hanswer)
  | succ rank ih =>
    obtain ⟨answer, hanswer, hfound⟩ := Logged.bind_ok hfound
    cases answer with
    | some found =>
      cases Logged.pure_ok hfound
      exact hgrows.type _ _ (ask_ok hanswer)
    | none =>
      dsimp only at hfound
      cases htag : primitiveTag? (arrayName base rank) with
      | some element =>
        rw [htag] at hfound
        cases Logged.pure_ok hfound
        exact hgrows.array _ (hgrows.tag _ _ htag)
      | none =>
        simp only [htag] at hfound
        split at hfound
        · obtain ⟨element, helement, hfound⟩ := Logged.bind_ok hfound
          cases Logged.pure_ok hfound
          exact hgrows.array _ (ih helement)
        · split at hfound
          · rename_i element halias
            cases Logged.pure_ok hfound
            exact hgrows.array _ (hbrings.aliases _ _ halias)
          · cases hfound

theorem lookupType_persists (hgrows : Host.Grows known h h') (name : String) (span : Span) :
    Persists (lookupType (context.over h) name span) (lookupType (context.over h') name span) :=
  lookupArray_persists hgrows span (splitArrayName_base name) _

theorem lookupType_known (hgrows : Host.Grows known h h') (hbrings : context.Brings known)
    {name : String} {span : Span} {type : HostType}
    (hfound : (lookupType (context.over h) name span).result = .ok type) : known type :=
  lookupArray_known hgrows hbrings hfound

/-- Names without a point that are no array names mean what they meant. -/
theorem Host.Grows.type?_eq (hgrows : Host.Grows known h h') {name : String}
    (hplain : ¬ (isDotted name || 0 < (splitArrayName name).2)) :
    h'.type? name = h.type? name := by
  simp only [Bool.or_eq_true, decide_eq_true_eq, not_or, Nat.not_lt, Nat.le_zero] at hplain
  rcases hgrows.names name hplain.2 with hsame | ⟨hdotted, -⟩
  · exact hsame 0
  · exact absurd hdotted hplain.1

/-! ## Forms that denote types -/

theorem symbolType?_persists (hgrows : Host.Grows known h h') (symbol : Symbol) (span : Span) :
    Persists (symbolType? (context.over h) symbol span)
      (symbolType? (context.over h') symbol span) := by
  unfold symbolType?
  rw [Context.over_locals, Context.over_locals, Context.over_names, Context.over_names]
  by_cases hbound : context.locals.binds symbol || symbol.isQualified
  · rw [if_pos hbound, if_pos hbound]
    exact .refl _
  · rw [if_neg hbound, if_neg hbound]
    by_cases hplain : isDotted symbol.name || 0 < (splitArrayName symbol.name).2
    · rw [if_pos hplain, if_pos hplain]
      exact (lookupType_persists hgrows symbol.name span).bind fun type _ => .refl _
    · rw [if_neg hplain, if_neg hplain]
      have hanswer : (context.over h').findType? symbol.name =
          (context.over h).findType? symbol.name := by
        simp only [Context.findType?, Context.over, hgrows.type?_eq hplain]
      rw [hanswer]
      exact .refl _

theorem symbolType?_known (hgrows : Host.Grows known h h') (hbrings : context.Brings known)
    {symbol : Symbol} {span : Span} {type : HostType}
    (hfound : (symbolType? (context.over h) symbol span).result = .ok (some type)) :
    known type := by
  unfold symbolType? at hfound
  split at hfound
  · cases Logged.pure_ok hfound
  · split at hfound
    · obtain ⟨found, hlookup, hfound⟩ := Logged.bind_ok hfound
      cases Logged.pure_ok hfound
      exact lookupType_known hgrows hbrings hlookup
    · split at hfound
      · rename_i found halias
        cases Logged.pure_ok hfound
        exact hbrings.aliases _ _ halias
      · cases Logged.pure_ok hfound
      · exact hgrows.type _ _ (ask_ok hfound)

theorem formType?_persists (hgrows : Host.Grows known h h') (allowString : Bool) (form : Form) :
    Persists (formType? (context.over h) allowString form)
      (formType? (context.over h') allowString form) := by
  cases form with
  | group delimiter items span => exact .refl _
  | leaf datum span =>
    cases datum with
    | symbol symbol => exact symbolType?_persists hgrows symbol span
    | string name =>
      cases allowString with
      | false => exact .refl _
      | true => exact (lookupType_persists hgrows name span).bind fun type _ => .refl _
    | _ => exact .refl _

theorem formType?_known (hgrows : Host.Grows known h h') (hbrings : context.Brings known)
    {allowString : Bool} {form : Form} {type : HostType} (hembeds : form.Embeds known)
    (hfound : (formType? (context.over h) allowString form).result = .ok (some type)) :
    known type := by
  cases form with
  | group delimiter items span => cases Logged.pure_ok hfound
  | leaf datum span =>
    cases datum with
    | symbol symbol => exact symbolType?_known hgrows hbrings hfound
    | embedded found =>
      cases Logged.pure_ok hfound
      exact hembeds _ _ .self
    | string name =>
      cases allowString with
      | false => cases Logged.pure_ok hfound
      | true =>
        obtain ⟨found, hlookup, hfound⟩ := Logged.bind_ok hfound
        cases Logged.pure_ok hfound
        exact lookupType_known hgrows hbrings hlookup
    | _ => cases Logged.pure_ok hfound

theorem tagType_persists (hgrows : Host.Grows known h h') (form : Form) :
    Persists (tagType (context.over h) form) (tagType (context.over h') form) := by
  unfold tagType
  dsimp only
  split
  · exact .refl _
  · exact (formType?_persists hgrows true form).bind fun type _ => .refl _

theorem typeArgs_persists (hgrows : Host.Grows known h h') (forms : List Form) :
    Persists (typeArgs (context.over h) forms) (typeArgs (context.over h') forms) := by
  refine Persists.mapM fun form _ => ?_
  unfold typeArg
  dsimp only
  split
  · exact (tagType_persists hgrows form).mapError _
  · exact .refl _

/-! ## Members -/

/-- The type that members are looked up in, if there is one, is known. -/
def Receiver.Brings (known : HostType → Prop) : Receiver Expr → Prop
  | .static type => known type
  | .object target => ∀ type, target.type? = some type → known type

theorem findNullary?_over (hgrows : Host.Grows known h h') {type : HostType} (htype : known type)
    (isStatic : Bool) (name : String) (propertyStyle : Bool) :
    findNullary? (context.over h') isStatic type name propertyStyle =
      findNullary? (context.over h) isStatic type name propertyStyle := by
  simp only [findNullary?, Context.findField?, Context.findProperty?, Context.findNullaryMethod?,
    Context.over, hgrows.field _ _ _ htype, hgrows.property _ _ _ htype,
    hgrows.nullaryMethod _ _ _ htype]

theorem nullaryAccess_over (hgrows : Host.Grows known h h') {receiver : Receiver Expr}
    (hreceiver : receiver.Brings known) (member : Symbol) (site : Site) :
    nullaryAccess (context.over h') receiver member site =
      nullaryAccess (context.over h) receiver member site := by
  unfold nullaryAccess
  cases receiver with
  | static type =>
    simp only [findNullary?_over hgrows hreceiver]
    rfl
  | object target =>
    cases htype : target.type? with
    | none =>
      simp only [htype]
      rfl
    | some type =>
      simp only [htype, findNullary?_over hgrows (hreceiver type htype)]
      rfl

theorem findOverload?_over (hgrows : Host.Grows known h h') {receiver : Receiver Expr}
    (hreceiver : receiver.Brings known) (name : String) (arity typeArgCount : Nat) :
    findOverload? (context.over h') receiver name arity typeArgCount =
      findOverload? (context.over h) receiver name arity typeArgCount := by
  unfold findOverload?
  cases receiver with
  | static type =>
    have hmethod := hgrows.method true type name arity hreceiver
    simp only [Context.findMethod?, Context.over, hmethod]
  | object target =>
    dsimp only
    cases htype : target.type? with
    | none => rfl
    | some type =>
      have hmethod := hgrows.method false type name arity (hreceiver type htype)
      simp only [Context.findMethod?, Context.over, hmethod]

/-- A member that was found has a known type. -/
theorem Resolved.type_known (hgrows : Host.Grows known h h') {node : Access Expr}
    (hnode : Resolved h node) {type : HostType} (htype : node.type? = some type) :
    known type := by
  have hcall : ∀ (call : Call Expr), (∀ method, call.method = some method →
      known method.returns) → call.type? = some type → known type := by
    intro call hmethods hcall
    obtain ⟨method, hmethod, hreturns⟩ :=
      Option.map_eq_some_iff.mp (Option.filter_eq_some_iff.mp hcall).1
    rw [← hreturns]
    exact hmethods method hmethod
  cases hnode with
  | staticField hfield =>
    cases htype
    exact hgrows.fieldType _ _ _ _ hfield
  | staticProperty hproperty =>
    cases htype
    exact hgrows.propertyType _ _ _ _ hproperty
  | staticNullary hmethod =>
    refine hcall _ ?_ htype
    rintro method ⟨⟩
    exact hgrows.nullaryReturns _ _ _ _ hmethod
  | staticCall hmethods =>
    exact hcall _ (fun method hmethod => hgrows.methodReturns _ _ _ _ _
      (hmethods method hmethod).1) htype
  | instanceField _ hfield =>
    cases htype
    exact hgrows.fieldType _ _ _ _ hfield
  | deferredField => cases htype
  | instanceProperty _ hproperty =>
    cases htype
    exact hgrows.propertyType _ _ _ _ hproperty
  | instanceNullary _ hmethod =>
    refine hcall _ ?_ htype
    rintro method ⟨⟩
    exact hgrows.nullaryReturns _ _ _ _ hmethod
  | instanceCall hmethods =>
    refine hcall _ (fun method hmethod => ?_) htype
    obtain ⟨_, _, hhost, _⟩ := hmethods method hmethod
    exact hgrows.methodReturns _ _ _ _ _ hhost
  | dynamicMember => cases htype

/-! ## Analyzers -/

/-- An analyzer that gives the same over the second host as over the first, where it succeeds
there, and an expression of a known type. -/
structure Survives (known : HostType → Prop) (h h' : Host) (a : Analyzer) : Prop where
  persists : ∀ (context : Context) (form : Form), context.Brings known → form.Embeds known →
    Persists (a (context.over h) form) (a (context.over h') form)
  type : ∀ (context : Context) (form : Form) (expr : Expr), context.Brings known →
    form.Embeds known → (a (context.over h) form).result = .ok expr →
    ∀ type, expr.type? = some type → known type

variable {a : Analyzer}

theorem argument_persists (ha : Survives known h h' a) (hbrings : context.Brings known)
    {form : Form} (hembeds : form.Embeds known) :
    Persists (argument a (context.over h) form) (argument a (context.over h') form) := by
  unfold argument
  split
  · exact .refl _
  · have hvalue := ha.persists { context with assigning := false } form
      ⟨hbrings.aliases, hbrings.tags⟩ hembeds
    exact hvalue.bind fun value _ => .refl _

theorem targetReceiver_persists (hgrows : Host.Grows known h h') (ha : Survives known h h' a)
    (hbrings : context.Brings known) {target : Form} (hembeds : target.Embeds known) :
    Persists (targetReceiver a (context.over h) target)
      (targetReceiver a (context.over h') target) := by
  unfold targetReceiver
  refine (formType?_persists hgrows false target).bind fun type _ => ?_
  cases type with
  | some type => exact .refl _
  | none =>
    have hvalue := ha.persists { context with assigning := false } target
      ⟨hbrings.aliases, hbrings.tags⟩ hembeds
    exact hvalue.bind fun value _ => .refl _

theorem targetReceiver_known (hgrows : Host.Grows known h h') (ha : Survives known h h' a)
    (hbrings : context.Brings known) {target : Form} (hembeds : target.Embeds known)
    {receiver : Receiver Expr}
    (hreceiver : (targetReceiver a (context.over h) target).result = .ok receiver) :
    receiver.Brings known := by
  obtain ⟨type, htype, hreceiver⟩ := Logged.bind_ok hreceiver
  cases type with
  | some type =>
    cases Logged.pure_ok hreceiver
    exact formType?_known hgrows hbrings hembeds htype
  | none =>
    obtain ⟨value, hvalue, hreceiver⟩ := Logged.bind_ok hreceiver
    cases Logged.pure_ok hreceiver
    exact ha.type { context with assigning := false } target value
      ⟨hbrings.aliases, hbrings.tags⟩ hembeds hvalue

theorem callAccess_persists (hgrows : Host.Grows known h h') (ha : Survives known h h' a)
    (hbrings : context.Brings known) {receiver : Receiver Expr}
    (hreceiver : receiver.Brings known) {member : Form} {rest : List Form}
    (hmember : member.Embeds known) (hrest : ∀ form ∈ rest, form.Embeds known) (site : Site) :
    Persists (callAccess a (context.over h) receiver member rest site)
      (callAccess a (context.over h') receiver member rest site) := by
  unfold callAccess
  refine (Persists.refl _).bind ?_
  rintro ⟨symbol, tail⟩ hparts
  have htail : ∀ form ∈ (splitTypeArgs tail).2, form.Embeds known := by
    intro form hform
    rcases callParts_mem hparts (splitTypeArgs_mem hform) with hmem | ⟨hinside, -⟩
    · exact hrest form hmem
    · exact hmember.inside hinside
  have htypes : Persists ((splitTypeArgs tail).1.mapM (typeArgs (context.over h)))
      ((splitTypeArgs tail).1.mapM (typeArgs (context.over h'))) :=
    Persists.mapM_option _ (typeArgs_persists hgrows)
  have hargs : Persists (arguments a (context.over h) (splitTypeArgs tail).2)
      (arguments a (context.over h') (splitTypeArgs tail).2) :=
    Persists.mapM fun form hform => argument_persists ha hbrings (htail form hform)
  dsimp only
  refine htypes.bind fun types _ => hargs.bind fun args _ => ?_
  simp only [findOverload?_over hgrows hreceiver, Context.warn_over, Context.over_overflow]
  exact .refl _

theorem analyzeAccess_persists (hgrows : Host.Grows known h h') (ha : Survives known h h' a)
    (hbrings : context.Brings known) {form : Form} (hembeds : form.Embeds known) :
    Persists (analyzeAccess a (context.over h) form) (analyzeAccess a (context.over h') form) := by
  unfold analyzeAccess
  cases hlist : form.list? with
  | none => exact .refl _
  | some items =>
    have hitem : ∀ item ∈ items, item.Embeds known :=
      fun item hmem => hembeds.inside (.of_list? hlist hmem)
    match items, hitem with
    | [], _ | [_], _ | [_, _], _ => exact .refl _
    | marker :: target :: member :: rest, hitem =>
      have htarget := hitem target (by simp)
      have hmember := hitem member (by simp)
      have hrest : ∀ item ∈ rest, item.Embeds known := fun item hmem => hitem item (by simp [hmem])
      refine (targetReceiver_persists hgrows ha hbrings htarget).bind fun receiver hfound => ?_
      have hreceiver := targetReceiver_known hgrows ha hbrings htarget hfound
      have hcall := callAccess_persists hgrows ha hbrings hreceiver hmember hrest
        (context.site form.span)
      cases member.symbol? with
      | none => exact hcall
      | some symbol =>
        cases rest with
        | nil =>
          dsimp only
          rw [nullaryAccess_over hgrows hreceiver]
          exact .refl _
        | cons first rest => exact hcall

theorem datumExpr_persists (hgrows : Host.Grows known h h') (span : Span) (datum : Datum) :
    Persists (datumExpr (context.over h) span datum)
      (datumExpr (context.over h') span datum) := by
  cases datum with
  | symbol symbol =>
    simp only [datumExpr, symbolExpr, Context.over_locals, Context.over_names]
    split
    · exact .refl _
    · split
      · exact .refl _
      · split
        · exact .refl _
        · exact .refl _
        · exact (symbolType?_persists hgrows symbol span).bind fun type _ => .refl _
  | _ => exact .refl _

theorem datumExpr_known (hgrows : Host.Grows known h h') (hbrings : context.Brings known)
    {span : Span} {datum : Datum} {expr : Expr}
    (hexpr : (datumExpr (context.over h) span datum).result = .ok expr) {type : HostType}
    (htype : expr.type? = some type) : known type := by
  have hliteral : ∀ literal, expr = .constant literal → known type := by
    rintro literal rfl
    exact hgrows.literal literal type htype
  cases datum with
  | symbol symbol =>
    simp only [datumExpr, symbolExpr] at hexpr
    split at hexpr
    · rename_i binding hbinding
      cases Logged.pure_ok hexpr
      exact hbrings.tags symbol binding hbinding type htype
    · split at hexpr
      · cases Logged.pure_ok hexpr
        cases htype
      · split at hexpr
        · cases Logged.pure_ok hexpr
          cases htype
        · cases Logged.pure_ok hexpr
          cases htype
        · obtain ⟨found, -, hexpr⟩ := Logged.bind_ok hexpr
          cases found with
          | none => cases hexpr
          | some found =>
            cases Logged.pure_ok hexpr
            cases htype
  | embedded found =>
    cases Logged.pure_ok hexpr
    cases htype
  | _ => exact hliteral _ (Logged.pure_ok hexpr).symm

theorem assignExpr_persists (hgrows : Host.Grows known h h') (ha : Survives known h h' a)
    (hbrings : context.Brings known) {items : List Form}
    (hitems : ∀ item ∈ items, item.Embeds known) (span : Span) :
    Persists (assignExpr a (context.over h) items span)
      (assignExpr a (context.over h') items span) := by
  unfold assignExpr
  split
  · rename_i marker target value
    split
    · exact .refl _
    · have hassigning : Context.Brings known { context with assigning := true } :=
        ⟨hbrings.aliases, hbrings.tags⟩
      have htarget := analyzeAccess_persists hgrows ha hassigning (hitems target (by simp))
      refine htarget.bind fun node _ => ?_
      split
      · exact .refl _
      · have hvalue := ha.persists { context with assigning := false } value
          ⟨hbrings.aliases, hbrings.tags⟩ (hitems value (by simp))
        exact hvalue.bind fun value _ => .refl _
  · exact .refl _

theorem assignExpr_known (hgrows : Host.Grows known h h') {items : List Form} {span : Span}
    {expr : Expr} (hexpr : (assignExpr a (context.over h) items span).result = .ok expr)
    {type : HostType} (htype : expr.type? = some type) : known type := by
  unfold assignExpr at hexpr
  split at hexpr
  · split at hexpr
    · cases hexpr
    · obtain ⟨node, hnode, hexpr⟩ := Logged.bind_ok hexpr
      split at hexpr
      · cases hexpr
      · obtain ⟨value, -, hexpr⟩ := Logged.bind_ok hexpr
        cases Logged.pure_ok hexpr
        exact (analyzeAccess_resolved hnode).type_known hgrows htype
  · cases hexpr

theorem analyzeStep_survives (hgrows : Host.Grows known h h') (ha : Survives known h h' a) :
    Survives known h h' (analyzeStep a) where
  persists := by
    intro context form hbrings hembeds
    cases form with
    | leaf datum span => exact datumExpr_persists hgrows span datum
    | group delimiter items span =>
      simp only [analyzeStep]
      split
      · exact (analyzeAccess_persists hgrows ha hbrings hembeds).bind fun node _ => .refl _
      · split
        · exact assignExpr_persists hgrows ha hbrings
            (fun item hitem => hembeds.inside (.of_mem hitem)) span
        · exact .refl _
  type := by
    intro context form expr hbrings hembeds hexpr type htype
    cases form with
    | leaf datum span => exact datumExpr_known hgrows hbrings hexpr htype
    | group delimiter items span =>
      simp only [analyzeStep] at hexpr
      split at hexpr
      · obtain ⟨node, hnode, hexpr⟩ := Logged.bind_ok hexpr
        cases Logged.pure_ok hexpr
        exact (analyzeAccess_resolved hnode).type_known hgrows htype
      · split at hexpr
        · exact assignExpr_known hgrows hexpr htype
        · cases hexpr

theorem analyzeUpTo_survives (hgrows : Host.Grows known h h') (depth : Nat) :
    Survives known h h' (analyzeUpTo depth) := by
  induction depth with
  | zero =>
    refine analyzeStep_survives hgrows ⟨fun _ _ _ _ => .fail _ _, ?_⟩
    intro context form expr _ _ hexpr
    cases hexpr
  | succ depth ih => exact analyzeStep_survives hgrows ih

/-- **Success survives growth.** -/
theorem analyze_survives (hgrows : Host.Grows known h h') : Survives known h h' analyze where
  persists := fun context form => (analyzeUpTo_survives hgrows form.depth).persists context form
  type := fun context form => (analyzeUpTo_survives hgrows form.depth).type context form

end

end Interop
