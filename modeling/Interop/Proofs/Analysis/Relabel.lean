import Interop.Analysis.Form
import Interop.Proofs.Logged
import Interop.Proofs.Expr.Relabel

/-! Analysis does not look at labels. When the spans of a form and the overflow mode of its context
are replaced, the expression changes in nothing but its labels, an error and a warning in nothing
but their places, and the host is asked the same questions in the same order. -/

namespace Interop

def Context.relabel (r : Relabel) (context : Context) : Context :=
  { context with overflow := r.overflow context.overflow }

def Warning.relabel (r : Relabel) : Warning → Warning
  | .member site name => .member (site.relabel r) name
  | .call site method arity => .call (site.relabel r) method arity

def Event.relabel (r : Relabel) : Event → Event
  | .query asked hit => .query asked hit
  | .warning given => .warning (given.relabel r)
  | .visit form assigning => .visit (form.mapSpans r.span) assigning

/-- The analysis with other labels; `s` replaces those of the result. -/
abbrev Relabel.image {α α' : Type} (r : Relabel) (s : α → α') (x : Analysis α) : Analysis α' :=
  x.mapAll (Event.relabel r) (InteropError.mapSpan r.span) s

/-- An analyzer that does not look at labels. -/
def Relabel.Respects (r : Relabel) (analyze : Analyzer) : Prop :=
  ∀ context form, analyze (context.relabel r) (form.mapSpans r.span) =
    r.image (Expr.relabel r) (analyze context form)

section

variable (r : Relabel)

/-! ## Types -/

/-- A question to the host has no labels. -/
theorem image_ask {α : Type} (query : Query) (answer : Option α) :
    Context.ask query answer = r.image id (Context.ask query answer) := by
  cases answer <;> rfl

theorem lookupArray_relabel (context : Context) (span : Span) (base : String) (rank : Nat) :
    lookupArray (context.relabel r) (r.span span) base rank =
      r.image id (lookupArray context span base rank) := by
  induction rank with
  | zero =>
    unfold lookupArray
    refine Logged.bind_mapAll (image_ask r (.type base) (context.host.type? base)) ?_
    intro found
    cases found <;> rfl
  | succ rank ih =>
    unfold lookupArray
    refine Logged.bind_mapAll (image_ask r (.type _) (context.host.type? _)) ?_
    intro found
    cases found with
    | some type => rfl
    | none =>
      have hnames : (context.relabel r).names = context.names := rfl
      simp only [id_eq, hnames]
      cases primitiveTag? (arrayName base rank) with
      | some type => rfl
      | none =>
        dsimp only
        split
        · exact Logged.bind_mapAll ih fun type => rfl
        · rcases context.names.lookup? (arrayName base rank) with _ | type | var <;> rfl

theorem lookupType_relabel (context : Context) (name : String) (span : Span) :
    lookupType (context.relabel r) name (r.span span) =
      r.image id (lookupType context name span) :=
  lookupArray_relabel r context span _ _

theorem symbolType?_relabel (context : Context) (symbol : Symbol) (span : Span) :
    symbolType? (context.relabel r) symbol (r.span span) =
      r.image id (symbolType? context symbol span) := by
  unfold symbolType?
  have hlocals : (context.relabel r).locals = context.locals := rfl
  have hnames : (context.relabel r).names = context.names := rfl
  rw [hlocals, hnames]
  split
  · rfl
  · split
    · exact Logged.bind_mapAll (lookupType_relabel r context symbol.name span) fun type => rfl
    · split
      · rfl
      · rfl
      · exact image_ask r _ _

theorem formType?_relabel (context : Context) (allowString : Bool) (form : Form) :
    formType? (context.relabel r) allowString (form.mapSpans r.span) =
      r.image id (formType? context allowString form) := by
  cases form with
  | group delimiter items span => rfl
  | leaf datum span =>
    cases datum with
    | symbol symbol => exact symbolType?_relabel r context symbol span
    | string name =>
      cases allowString with
      | false => rfl
      | true => exact Logged.bind_mapAll (lookupType_relabel r context name span) fun type => rfl
    | _ => rfl

theorem tagType_relabel (context : Context) (form : Form) :
    tagType (context.relabel r) (form.mapSpans r.span) = r.image id (tagType context form) := by
  unfold tagType
  rw [Form.symbol?_mapSpans]
  dsimp only
  split
  · rfl
  · refine Logged.bind_mapAll (formType?_relabel r context true form) fun type => ?_
    cases type with
    | some type => rfl
    | none =>
      show Logged.fail _ = _
      rw [Form.text_mapSpans, Form.span_mapSpans]
      rfl

/-! ## Arguments -/

theorem typeArg_relabel (context : Context) (form : Form) :
    typeArg (context.relabel r) (form.mapSpans r.span) = r.image id (typeArg context form) := by
  unfold typeArg
  rw [Form.symbol?_mapSpans, Form.text_mapSpans, Form.span_mapSpans, tagType_relabel]
  dsimp only
  split
  · rcases tagType context form with ⟨log, e | type⟩
    · -- an internal error keeps its kind and every other becomes the same one
      cases e <;> rfl
    · rfl
  · rfl

theorem typeArgs_relabel (context : Context) (forms : List Form) :
    typeArgs (context.relabel r) (forms.map (Form.mapSpans r.span)) =
      r.image id (typeArgs context forms) := by
  have heach : ∀ form ∈ forms, typeArg (context.relabel r) (form.mapSpans r.span) =
      r.image id (typeArg context form) := by
    intro form _
    exact typeArg_relabel r context form
  have h := Logged.mapM_mapAll heach
  rw [List.map_id_fun] at h
  exact h

theorem byRefLocal_relabel (context : Context) (form : Form) :
    byRefLocal (context.relabel r) (form.mapSpans r.span) =
      (byRefLocal context form).mapError (InteropError.mapSpan r.span) := by
  have hlocals : (context.relabel r).locals = context.locals := rfl
  unfold byRefLocal
  rw [Form.list?_mapSpans, Form.text_mapSpans, Form.span_mapSpans, hlocals]
  rcases form.list? with _ | _ | ⟨marker, _ | ⟨operand, _ | ⟨third, rest⟩⟩⟩
  · rfl
  · rfl
  · rfl
  · simp only [Option.map_some, List.map_cons, List.map_nil, Form.symbol?_mapSpans,
      Form.text_mapSpans]
    cases operand.symbol? with
    | none => rfl
    | some symbol =>
      dsimp only
      cases context.locals.lookup? symbol <;> rfl
  · rfl

variable {r} {a b : Analyzer}

theorem argument_relabel (h : r.Respects a) (context : Context) (form : Form) :
    argument a (context.relabel r) (form.mapSpans r.span) =
      r.image (Argument.relabel r) (argument a context form) := by
  unfold argument
  rw [Form.isHeadedBy_mapSpans]
  split
  · rw [byRefLocal_relabel]
    cases byRefLocal context form <;> rfl
  · exact Logged.bind_mapAll (h { context with assigning := false } form) fun value => rfl

theorem arguments_relabel (h : r.Respects a) (context : Context) (forms : List Form) :
    arguments a (context.relabel r) (forms.map (Form.mapSpans r.span)) =
      r.image (List.map (Argument.relabel r)) (arguments a context forms) :=
  Logged.mapM_mapAll fun form _ => argument_relabel h context form

theorem targetReceiver_relabel (h : r.Respects a) (context : Context) (target : Form) :
    targetReceiver a (context.relabel r) (target.mapSpans r.span) =
      r.image (Receiver.relabel r) (targetReceiver a context target) := by
  unfold targetReceiver
  refine Logged.bind_mapAll (formType?_relabel r context false target) fun type => ?_
  cases type with
  | some type => rfl
  | none =>
    exact Logged.bind_mapAll (h { context with assigning := false } target) fun value => rfl

/-! ## Members -/

theorem warn_relabel (context : Context) (warning : Warning) :
    (context.relabel r).warn (warning.relabel r) = r.image id (context.warn warning) := by
  have hasks : (context.relabel r).warnOnReflection = context.warnOnReflection := rfl
  unfold Context.warn
  rw [hasks]
  split <;> rfl

theorem findNullary?_relabel (context : Context) (isStatic : Bool) (type : HostType)
    (name : String) (propertyStyle : Bool) :
    findNullary? (context.relabel r) isStatic type name propertyStyle =
      r.image id (findNullary? context isStatic type name propertyStyle) := by
  unfold findNullary?
  refine Logged.bind_mapAll (image_ask r (.field ..) (context.host.field? ..)) fun field => ?_
  cases field with
  | some field => rfl
  | none =>
    refine Logged.bind_mapAll (image_ask r (.property ..) (context.host.property? ..)) ?_
    intro property
    cases property with
    | some property => rfl
    | none =>
      cases propertyStyle with
      | true => rfl
      | false =>
        have hmethod := image_ask r (.nullaryMethod isStatic type name)
          (context.host.nullaryMethod? isStatic type name)
        exact Logged.bind_mapAll hmethod fun method => rfl

theorem deferredMember_relabel (context : Context) (target : Expr) (name : String) (site : Site) :
    deferredMember (context.relabel r) (target.relabel r) name (site.relabel r) =
      r.image (relabelAccess r) (deferredMember context target name site) := by
  have hassigning : (context.relabel r).assigning = context.assigning := rfl
  unfold deferredMember
  rw [hassigning]
  refine Logged.bind_mapAll (warn_relabel context (.member site name)) fun _ => ?_
  split <;> rfl

theorem nullaryAccess_relabel (context : Context) (receiver : Receiver Expr) (member : Symbol)
    (site : Site) :
    nullaryAccess (context.relabel r) (receiver.relabel r) member (site.relabel r) =
      r.image (relabelAccess r) (nullaryAccess context receiver member site) := by
  unfold nullaryAccess
  dsimp only
  cases receiver with
  | static type =>
    refine Logged.bind_mapAll (findNullary?_relabel context true type _ _) fun found => ?_
    rcases found with _ | field | property | method <;> rfl
  | object target =>
    dsimp only [Receiver.relabel]
    rw [Expr.relabel_type?]
    cases target.type? with
    | none =>
      simp only [pure_bind]
      exact deferredMember_relabel context target _ site
    | some type =>
      refine Logged.bind_mapAll (findNullary?_relabel context false type _ _) fun found => ?_
      rcases found with _ | field | property | method
      · exact deferredMember_relabel context target _ site
      · rfl
      · rfl
      · rfl

/-! ## Calls -/

theorem callParts_mapSpans (f : Span → Span) (member : Form) (rest : List Form) (span : Span) :
    callParts (member.mapSpans f) (rest.map (Form.mapSpans f)) (f span) =
      ((callParts member rest span).map (Prod.map id (List.map (Form.mapSpans f)))).mapError
        (InteropError.mapSpan f) := by
  unfold callParts
  rw [Form.list?_mapSpans, Form.span_mapSpans, List.isEmpty_map]
  cases member.list? with
  | none =>
    dsimp only [Option.map_none, bind, Except.bind]
    rw [Form.symbol?_mapSpans, Form.text_mapSpans, Form.span_mapSpans]
    cases member.symbol? <;> rfl
  | some items =>
    dsimp only [Option.map_some]
    by_cases hrest : rest.isEmpty
    · rw [if_pos hrest, if_pos hrest]
      cases items with
      | nil => rfl
      | cons head tail =>
        rw [List.map_cons]
        dsimp only [bind, Except.bind]
        rw [Form.symbol?_mapSpans, Form.text_mapSpans, Form.span_mapSpans]
        cases head.symbol? <;> rfl
    · rw [if_neg hrest, if_neg hrest]
      rfl

theorem splitTypeArgs_mapSpans (f : Span → Span) (forms : List Form) :
    splitTypeArgs (forms.map (Form.mapSpans f)) =
      Prod.map (Option.map (List.map (Form.mapSpans f))) (List.map (Form.mapSpans f))
        (splitTypeArgs forms) := by
  cases forms with
  | nil => rfl
  | cons clause args =>
    simp only [List.map_cons, splitTypeArgs, Form.isHeadedBy_mapSpans, Form.list?_mapSpans]
    split
    · cases clause.list? with
      | none => rfl
      | some items => simp [Prod.map]
    · rfl

theorem findOverload?_relabel (context : Context) (receiver : Receiver Expr) (name : String)
    (arity typeArgCount : Nat) :
    findOverload? (context.relabel r) (receiver.relabel r) name arity typeArgCount =
      r.image id (findOverload? context receiver name arity typeArgCount) := by
  unfold findOverload?
  cases receiver with
  | static type =>
    have hmethod := image_ask r (.method true type name arity)
      (context.host.method? true type name arity)
    exact Logged.bind_mapAll hmethod fun found => rfl
  | object target =>
    dsimp only [Receiver.relabel]
    rw [Expr.relabel_type?]
    cases target.type? with
    | none => rfl
    | some type =>
      have hmethod := image_ask r (.method false type name arity)
        (context.host.method? false type name arity)
      exact Logged.bind_mapAll hmethod fun found => rfl

theorem callAccess_relabel (h : r.Respects a) (context : Context) (receiver : Receiver Expr)
    (member : Form) (rest : List Form) (site : Site) :
    callAccess a (context.relabel r) (receiver.relabel r) (member.mapSpans r.span)
        (rest.map (Form.mapSpans r.span)) (site.relabel r) =
      r.image (relabelAccess r) (callAccess a context receiver member rest site) := by
  unfold callAccess
  have hparts := callParts_mapSpans r.span member rest site.span
  refine Logged.bind_mapAll (congrArg Logged.ofExcept hparts) ?_
  rintro ⟨symbol, tail⟩
  dsimp only [Prod.map]
  rw [splitTypeArgs_mapSpans]
  have htypes : ((splitTypeArgs tail).1.map (List.map (Form.mapSpans r.span))).mapM
        (typeArgs (context.relabel r)) =
      r.image id ((splitTypeArgs tail).1.mapM (typeArgs context)) := by
    cases (splitTypeArgs tail).1 with
    | none => rfl
    | some forms => exact Logged.bind_mapAll (typeArgs_relabel r context forms) fun types => rfl
  refine Logged.bind_mapAll htypes fun types => ?_
  refine Logged.bind_mapAll (arguments_relabel h context (splitTypeArgs tail).2) fun args => ?_
  rw [List.length_map]
  refine Logged.bind_mapAll (findOverload?_relabel context receiver _ _ _) fun method => ?_
  rw [← relabelArgs_eq_map]
  dsimp only [id]
  split
  · refine Logged.bind_mapAll (warn_relabel context (.call site _ _)) fun _ => ?_
    cases receiver <;> rfl
  · cases receiver <;> rfl

/-! ## Forms -/

theorem analyzeAccess_relabel (h : r.Respects a) (context : Context) (form : Form) :
    analyzeAccess a (context.relabel r) (form.mapSpans r.span) =
      r.image (relabelAccess r) (analyzeAccess a context form) := by
  unfold analyzeAccess
  rw [Form.list?_mapSpans, Form.span_mapSpans]
  rcases form.list? with _ | _ | ⟨marker, _ | ⟨target, _ | ⟨member, rest⟩⟩⟩
  · rfl
  · rfl
  · rfl
  · rfl
  · refine Logged.bind_mapAll (targetReceiver_relabel h context target) fun receiver => ?_
    rw [Form.symbol?_mapSpans]
    cases member.symbol? with
    | none => exact callAccess_relabel h context receiver member rest (context.site form.span)
    | some symbol =>
      cases rest with
      | nil => exact nullaryAccess_relabel context receiver symbol (context.site form.span)
      | cons first rest =>
        exact callAccess_relabel h context receiver member (first :: rest)
          (context.site form.span)

theorem symbolExpr_relabel (context : Context) (symbol : Symbol) (span : Span) :
    symbolExpr (context.relabel r) symbol (r.span span) =
      r.image (Expr.relabel r) (symbolExpr context symbol span) := by
  have hlocals : (context.relabel r).locals = context.locals := rfl
  have hnames : (context.relabel r).names = context.names := rfl
  unfold symbolExpr
  rw [hlocals, hnames]
  split
  · rfl
  · split
    · rfl
    · split
      · rfl
      · rfl
      · refine Logged.bind_mapAll (symbolType?_relabel r context symbol span) fun type => ?_
        cases type <;> rfl

theorem datumExpr_relabel (context : Context) (span : Span) (datum : Datum) :
    datumExpr (context.relabel r) (r.span span) datum =
      r.image (Expr.relabel r) (datumExpr context span datum) := by
  cases datum with
  | symbol symbol => exact symbolExpr_relabel context symbol span
  | _ => rfl

theorem assignExpr_relabel (h : r.Respects a) (context : Context) (items : List Form)
    (span : Span) :
    assignExpr a (context.relabel r) (items.map (Form.mapSpans r.span)) (r.span span) =
      r.image (Expr.relabel r) (assignExpr a context items span) := by
  unfold assignExpr
  rcases items with _ | ⟨marker, _ | ⟨target, _ | ⟨value, _ | ⟨extra, rest⟩⟩⟩⟩
  · rfl
  · rfl
  · rfl
  · simp only [List.map_cons, List.map_nil, Form.isHeadedBy_mapSpans, Form.text_mapSpans,
      Form.span_mapSpans]
    split
    · rfl
    · have htarget := analyzeAccess_relabel h { context with assigning := true } target
      refine Logged.bind_mapAll htarget fun node => ?_
      rw [relabelAccess_isAssignable]
      split
      · rw [relabelAccess_invalidTarget]
        rfl
      · exact Logged.bind_mapAll (h { context with assigning := false } value) fun value => rfl
  · rfl

theorem analyzeStep_relabel (h : r.Respects a) : r.Respects (analyzeStep a) := by
  intro context form
  cases form with
  | leaf datum span => exact datumExpr_relabel context span datum
  | group delimiter items span =>
    have hheaded : ∀ name, (Form.group delimiter (Form.mapSpansList r.span items)
        (r.span span)).isHeadedBy name = (Form.group delimiter items span).isHeadedBy name :=
      Form.isHeadedBy_mapSpans r.span (.group delimiter items span)
    have htext : (Form.group delimiter (Form.mapSpansList r.span items) (r.span span)).text =
        (Form.group delimiter items span).text :=
      Form.text_mapSpans r.span (.group delimiter items span)
    simp only [Form.mapSpans, analyzeStep, hheaded, htext]
    split
    · exact Logged.bind_mapAll
        (analyzeAccess_relabel h context (.group delimiter items span)) fun node => rfl
    · split
      · rw [Form.mapSpansList_eq_map]
        exact assignExpr_relabel h context items span
      · rfl

theorem analyzeUpTo_relabel (r : Relabel) (depth : Nat) : r.Respects (analyzeUpTo depth) := by
  induction depth with
  | zero =>
    refine analyzeStep_relabel fun context form => ?_
    rw [Form.text_mapSpans, Form.span_mapSpans]
    rfl
  | succ depth ih => exact analyzeStep_relabel ih

/-- **Labels are only carried along.** -/
theorem analyze_relabel (r : Relabel) : r.Respects analyze := by
  intro context form
  unfold analyze
  rw [Form.depth_mapSpans]
  exact analyzeUpTo_relabel r form.depth context form

end

end Interop
