import Interop.Proofs.Analysis.Recursion

/-! Errors of analysis and their places. Every error names the span of a form that was written: that of
the analyzed form or of one inside it. So an analysis never fails with an error that has no place. -/

namespace Interop

/-- Whether a span is that of a form or of a form inside it. -/
def Form.HasSpan (form : Form) (span : Span) : Prop :=
  ∃ inner : Form, inner.Inside form ∧ inner.span = span

theorem Form.hasSpan_self (form : Form) : form.HasSpan form.span := ⟨form, .self, rfl⟩

theorem Form.HasSpan.mono {inner form : Form} {span : Span} (h : inner.HasSpan span)
    (hinner : inner.Inside form) : form.HasSpan span := by
  obtain ⟨source, hsource, hspan⟩ := h
  exact ⟨source, hsource.trans hinner, hspan⟩

/-- Whether an error has a place, of some kind. -/
def InteropError.IsAt (P : Span → Prop) (e : InteropError) : Prop :=
  ∃ span, e.span? = some span ∧ P span

theorem InteropError.IsAt.isInternal {P : Span → Prop} {e : InteropError} (h : e.IsAt P) :
    e.isInternal = false := by
  obtain ⟨span, hspan, -⟩ := h
  rw [InteropError.isInternal, hspan]
  rfl

/-- Whether an analysis can fail only with errors at places of some kind. -/
def FailsAt {α : Type} (P : Span → Prop) (x : Analysis α) : Prop :=
  ∀ e, x.result = .error e → e.IsAt P

namespace FailsAt

variable {α β : Type} {P Q : Span → Prop}

theorem pure (a : α) : FailsAt P (Pure.pure a : Analysis α) := nofun

theorem fail {e : InteropError} (h : e.IsAt P) : FailsAt P (Logged.fail e : Analysis α) := by
  rintro _ ⟨⟩
  exact h

theorem ofExcept {x : Except InteropError α} (h : ∀ e, x = .error e → e.IsAt P) :
    FailsAt P (Logged.ofExcept x : Analysis α) := h

theorem bind {x : Analysis α} {f : α → Analysis β} (hfirst : FailsAt P x)
    (hrest : ∀ a, x.result = .ok a → FailsAt P (f a)) : FailsAt P (x >>= f) := by
  intro e h
  rw [Logged.result_bind] at h
  cases hx : x.result with
  | error e' =>
    rw [hx] at h
    cases h
    exact hfirst e hx
  | ok a =>
    rw [hx] at h
    exact hrest a hx e h

theorem mono {x : Analysis α} (h : FailsAt P x) (hPQ : ∀ span, P span → Q span) :
    FailsAt Q x := by
  intro e he
  obtain ⟨span, hspan, hP⟩ := h e he
  exact ⟨span, hspan, hPQ span hP⟩

/-- What fails only at a form fails only inside the forms around it. -/
theorem inside {inner form : Form} {x : Analysis α} (h : FailsAt (· = inner.span) x)
    (hinner : inner.Inside form) : FailsAt form.HasSpan x :=
  h.mono fun _ hspan => ⟨inner, hinner, hspan.symm⟩

theorem mapM {f : α → Analysis β} {xs : List α} (h : ∀ x ∈ xs, FailsAt P (f x)) :
    FailsAt P (xs.mapM f) := by
  induction xs with
  | nil => exact .pure []
  | cons x xs ih =>
    have hrest := ih fun other hother => h other (List.mem_cons_of_mem x hother)
    rw [List.mapM_cons]
    exact (h x List.mem_cons_self).bind fun _ _ => hrest.bind fun _ _ => .pure _

theorem mapM_option {f : α → Analysis β} {choice : Option α}
    (h : ∀ a, choice = some a → FailsAt P (f a)) : FailsAt P (choice.mapM f) := by
  cases choice with
  | none => exact .pure none
  | some a => exact (h a rfl).bind fun _ _ => .pure _

/-- An error that is replaced because it has a place leaves its place to the new one. -/
theorem mapError_replace {x : Analysis α} {e : InteropError} (h : FailsAt P x) (he : e.IsAt Q) :
    FailsAt Q (x.mapError fun found => if found.isInternal then found else e) := by
  intro found hfound
  cases hx : x.result with
  | error first =>
    rw [Logged.mapError, hx] at hfound
    cases hfound
    dsimp only
    rw [(h first hx).isInternal]
    exact he
  | ok a =>
    rw [Logged.mapError, hx] at hfound
    cases hfound

/-- Questions to the host are always answered. -/
theorem ask (query : Query) (answer : Option α) : FailsAt P (Context.ask query answer) := nofun

theorem warn (context : Context) (warning : Warning) : FailsAt P (context.warn warning) := by
  unfold Context.warn
  split <;> exact nofun

end FailsAt

section

variable {context : Context} {form : Form} {span : Span} {P : Span → Prop}

/-! ## Types -/

theorem lookupArray_failsAt (base : String) (rank : Nat) :
    FailsAt (· = span) (lookupArray context span base rank) := by
  induction rank with
  | zero =>
    refine (FailsAt.ask _ _).bind fun type _ => ?_
    cases type with
    | some type => exact .pure type
    | none => exact .fail ⟨span, rfl, rfl⟩
  | succ rank ih =>
    refine (FailsAt.ask _ _).bind fun type _ => ?_
    cases type with
    | some type => exact .pure type
    | none =>
      dsimp only
      split
      · exact .pure _
      · split
        · exact ih.bind fun type _ => .pure _
        · split
          · exact .pure _
          · exact .fail ⟨span, rfl, rfl⟩

theorem symbolType?_failsAt (symbol : Symbol) :
    FailsAt (· = span) (symbolType? context symbol span) := by
  unfold symbolType?
  split
  · exact .pure none
  · split
    · exact (lookupArray_failsAt _ _).bind fun type _ => .pure _
    · split
      · exact .pure _
      · exact .pure none
      · exact .ask _ _

theorem formType?_failsAt (allowString : Bool) (form : Form) :
    FailsAt (· = form.span) (formType? context allowString form) := by
  unfold formType?
  split
  · exact .pure _
  · exact symbolType?_failsAt _
  · split
    · exact (lookupArray_failsAt _ _).bind fun type _ => .pure _
    · exact .pure none
  · exact .pure none

theorem tagType_failsAt (form : Form) : FailsAt (· = form.span) (tagType context form) := by
  unfold tagType
  dsimp only
  split
  · exact .pure _
  · refine (formType?_failsAt true form).bind fun type _ => ?_
    cases type with
    | some type => exact .pure type
    | none => exact .fail ⟨form.span, rfl, rfl⟩

/-! ## Arguments -/

theorem typeArg_failsAt (form : Form) : FailsAt (· = form.span) (typeArg context form) := by
  have hinvalid : (InteropError.invalidTypeArg form.text form.span).IsAt (· = form.span) :=
    ⟨form.span, rfl, rfl⟩
  unfold typeArg
  dsimp only
  split
  · exact (tagType_failsAt form).mapError_replace hinvalid
  · exact .fail hinvalid

theorem byRefLocal_isAt {e : InteropError} (h : byRefLocal context form = .error e) :
    e.IsAt (· = form.span) := by
  unfold byRefLocal at h
  split at h
  · split at h
    · split at h
      · cases h
      · cases h
        exact ⟨form.span, rfl, rfl⟩
    · cases h
      exact ⟨form.span, rfl, rfl⟩
  · cases h
    exact ⟨form.span, rfl, rfl⟩

end

/-! ## Analyzers -/

/-- An analyzer that fails only at the places of the form it is given and of those inside it. -/
def FailsInside (a : Analyzer) : Prop :=
  ∀ context (form : Form), FailsAt form.HasSpan (a context form)

section

variable {a : Analyzer} {context : Context} {form : Form}

theorem argument_failsAt (ha : FailsInside a) (form : Form) :
    FailsAt form.HasSpan (argument a context form) := by
  unfold argument
  split
  · have hbinding : FailsAt (· = form.span) (Logged.ofExcept (byRefLocal context form)) :=
      .ofExcept fun e => byRefLocal_isAt
    exact (hbinding.inside .self).bind fun binding _ => .pure _
  · exact (ha _ form).bind fun value _ => .pure _

theorem targetReceiver_failsAt (ha : FailsInside a) (target : Form) :
    FailsAt target.HasSpan (targetReceiver a context target) := by
  refine ((formType?_failsAt false target).inside .self).bind fun type _ => ?_
  cases type with
  | some type => exact .pure _
  | none => exact (ha _ target).bind fun value _ => .pure _

/-! ## Member access -/

theorem findNullary?_failsAt {P : Span → Prop} (isStatic : Bool) (type : HostType) (name : String)
    (propertyStyle : Bool) :
    FailsAt P (findNullary? context isStatic type name propertyStyle) := by
  refine (FailsAt.ask _ _).bind fun field _ => ?_
  cases field with
  | some field => exact .pure _
  | none =>
    refine (FailsAt.ask _ _).bind fun property _ => ?_
    cases property with
    | some property => exact .pure _
    | none =>
      dsimp only
      split
      · exact .pure none
      · exact (FailsAt.ask _ _).bind fun method _ => .pure _

theorem deferredMember_failsAt {P : Span → Prop} (target : Expr) (name : String) (site : Site) :
    FailsAt P (deferredMember context target name site) := by
  refine (FailsAt.warn _ _).bind fun _ _ => ?_
  split <;> exact .pure _

/-- Only a static member has to be known. -/
theorem nullaryAccess_failsAt (receiver : Receiver Expr) (member : Symbol) (site : Site) :
    FailsAt (· = site.span) (nullaryAccess context receiver member site) := by
  unfold nullaryAccess
  dsimp only
  cases receiver with
  | static type =>
    refine (findNullary?_failsAt true type _ _).bind fun found _ => ?_
    rcases found with _ | field | property | method
    · exact .fail ⟨site.span, rfl, rfl⟩
    · exact .pure _
    · exact .pure _
    · exact .pure _
  | object target =>
    dsimp only
    cases target.type? with
    | none =>
      simp only [pure_bind]
      exact deferredMember_failsAt target _ site
    | some type =>
      refine (findNullary?_failsAt false type _ _).bind fun found _ => ?_
      rcases found with _ | field | property | method
      · exact deferredMember_failsAt target _ site
      · exact .pure _
      · exact .pure _
      · exact .pure _

/-- What is wrong with the parts of a call is at the call, at the member or at the head of the
member. -/
theorem callParts_isAt {member : Form} {rest : List Form} {span : Span} {e : InteropError}
    (h : callParts member rest span = .error e) :
    e.IsAt fun place => place = span ∨ member.HasSpan place := by
  unfold callParts at h
  cases hlist : member.list? with
  | none =>
    simp only [hlist, bind, Except.bind] at h
    split at h
    · cases h
    · cases h
      exact ⟨_, rfl, .inr member.hasSpan_self⟩
  | some items =>
    simp only [hlist] at h
    split at h
    · cases items with
      | nil =>
        cases h
        exact ⟨_, rfl, .inr member.hasSpan_self⟩
      | cons head items =>
        simp only [bind, Except.bind] at h
        split at h
        · cases h
        · cases h
          exact ⟨_, rfl, .inr ⟨head, .of_list? hlist (.head _), rfl⟩⟩
    · cases h
      exact ⟨_, rfl, .inl rfl⟩

theorem findOverload?_failsAt {P : Span → Prop} (receiver : Receiver Expr) (name : String)
    (arity typeArgCount : Nat) :
    FailsAt P (findOverload? context receiver name arity typeArgCount) := by
  unfold findOverload?
  cases receiver with
  | static type => exact (FailsAt.ask _ _).bind fun found _ => .pure _
  | object target =>
    dsimp only
    cases target.type? with
    | none => exact .pure _
    | some type => exact (FailsAt.ask _ _).bind fun found _ => .pure _

theorem callAccess_failsAt (ha : FailsInside a) (receiver : Receiver Expr) {member : Form}
    {rest : List Form} {site : Site} (hsite : site.span = form.span) (hmember : member.Inside form)
    (hrest : ∀ item ∈ rest, item.Inside form) :
    FailsAt form.HasSpan (callAccess a context receiver member rest site) := by
  unfold callAccess
  refine FailsAt.bind (.ofExcept fun e he => ?_) ?_
  · obtain ⟨span, hspan, rfl | hhas⟩ := callParts_isAt he
    · exact ⟨_, hspan, form, .self, hsite.symm⟩
    · exact ⟨span, hspan, hhas.mono hmember⟩
  rintro ⟨symbol, tail⟩ hparts
  have htail : ∀ item ∈ tail, item.Inside form := by
    intro item hitem
    rcases callParts_mem hparts hitem with hmem | ⟨hinside, -⟩
    · exact hrest item hmem
    · exact hinside.trans hmember
  have htypes : FailsAt form.HasSpan ((splitTypeArgs tail).1.mapM (typeArgs context)) := by
    refine .mapM_option fun clause hclause => .mapM fun arg harg => ?_
    obtain ⟨item, hitem, hinside⟩ := splitTypeArgs_clause_inside hclause harg
    exact (typeArg_failsAt arg).inside (hinside.trans (htail item hitem))
  have hargs : FailsAt form.HasSpan (arguments a context (splitTypeArgs tail).2) :=
    .mapM fun arg harg => (argument_failsAt ha arg).mono fun span hspan =>
      hspan.mono (htail arg (splitTypeArgs_mem harg))
  refine htypes.bind fun types _ => hargs.bind fun args _ => ?_
  refine (findOverload?_failsAt _ _ _ _).bind fun method _ => ?_
  dsimp only
  split
  · refine (FailsAt.warn _ _).bind fun _ _ => ?_
    cases receiver <;> exact .pure _
  · cases receiver <;> exact .pure _

theorem analyzeAccess_failsAt (ha : FailsInside a) (form : Form) :
    FailsAt form.HasSpan (analyzeAccess a context form) := by
  have hself (fault : ShapeFault) :
      FailsAt form.HasSpan (Logged.fail (.malformedForm fault form.span) : Analysis (Access Expr)) :=
    .fail ⟨form.span, rfl, form.hasSpan_self⟩
  unfold analyzeAccess
  cases hlist : form.list? with
  | none => exact hself .notAList
  | some items =>
    have hitem : ∀ item ∈ items, item.Inside form := fun item hmem => .of_list? hlist hmem
    match items, hitem with
    | [], _ | [_], _ | [_, _], _ => exact hself .incompleteAccess
    | marker :: target :: member :: rest, hitem =>
      have htarget : FailsAt form.HasSpan (targetReceiver a context target) :=
        (targetReceiver_failsAt ha target).mono fun span hspan =>
          hspan.mono (hitem target (by simp))
      have hrest : ∀ item ∈ rest, item.Inside form := fun item hmem => hitem item (by simp [hmem])
      have hcall (receiver : Receiver Expr) : FailsAt form.HasSpan
          (callAccess a context receiver member rest (context.site form.span)) :=
        callAccess_failsAt ha receiver rfl (hitem member (by simp)) hrest
      refine htarget.bind fun receiver _ => ?_
      cases member.symbol? with
      | none => exact hcall receiver
      | some symbol =>
        cases rest with
        | nil => exact FailsAt.inside (nullaryAccess_failsAt receiver symbol _) .self
        | cons first rest => exact hcall receiver

/-! ## Forms -/

theorem symbolExpr_failsAt (symbol : Symbol) (span : Span) :
    FailsAt (· = span) (symbolExpr context symbol span) := by
  unfold symbolExpr
  split
  · exact .pure _
  · split
    · exact .pure _
    · split
      · exact .pure _
      · exact .pure _
      · refine (symbolType?_failsAt symbol).bind fun type _ => ?_
        cases type with
        | some type => exact .pure _
        | none => exact .fail ⟨span, rfl, rfl⟩

theorem datumExpr_failsAt (datum : Datum) (span : Span) :
    FailsAt (· = span) (datumExpr context span datum) := by
  cases datum with
  | symbol symbol => exact symbolExpr_failsAt symbol span
  | _ => exact .pure _

theorem assignExpr_failsAt (ha : FailsInside a) {items : List Form}
    (hitems : ∀ item ∈ items, item.Inside form) :
    FailsAt form.HasSpan (assignExpr a context items form.span) := by
  unfold assignExpr
  split
  · rename_i marker target value
    have htarget : ∀ span, target.HasSpan span → form.HasSpan span := fun span hspan =>
      hspan.mono (hitems target (by simp))
    split
    · exact .fail ⟨_, rfl, htarget _ target.hasSpan_self⟩
    · refine ((analyzeAccess_failsAt ha target).mono htarget).bind fun node _ => ?_
      split
      · exact .fail ⟨_, rfl, htarget _ target.hasSpan_self⟩
      · refine FailsAt.bind ((ha _ value).mono fun span hspan => ?_) fun stored _ => .pure _
        exact hspan.mono (hitems value (by simp))
  · exact .fail ⟨_, rfl, form.hasSpan_self⟩

end

/-- One layer of analysis fails inside its form if the analyzer of the forms inside does. -/
theorem analyzeStep_failsInside {a : Analyzer} (ha : FailsInside a) :
    FailsInside (analyzeStep a) := by
  intro context form
  cases form with
  | leaf datum span =>
    have hdatum : FailsAt (· = (Form.leaf datum span).span) (datumExpr context span datum) :=
      datumExpr_failsAt datum span
    exact hdatum.inside .self
  | group delimiter items span =>
    simp only [analyzeStep]
    split
    · exact (analyzeAccess_failsAt ha _).bind fun node _ => .pure _
    · split
      · have hitems : ∀ item ∈ items, item.Inside (.group delimiter items span) :=
          fun item hitem => .of_mem hitem
        exact assignExpr_failsAt ha hitems
      · exact .fail ⟨span, rfl, Form.hasSpan_self _⟩

theorem analyzeUpTo_failsInside (depth : Nat) : FailsInside (analyzeUpTo depth) := by
  induction depth with
  | zero => exact analyzeStep_failsInside fun _ form => .fail ⟨form.span, rfl, form.hasSpan_self⟩
  | succ depth ih => exact analyzeStep_failsInside ih

/-- Analysis fails only at a form that was written. -/
theorem analyze_failsInside : FailsInside analyze := fun context form =>
  analyzeUpTo_failsInside form.depth context form

end Interop
