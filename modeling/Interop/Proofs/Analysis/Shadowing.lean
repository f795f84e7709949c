import Interop.Catalog.Builtin
import Interop.Proofs.Analysis.ArrayName
import Interop.Proofs.Analysis.Recursion

/-! Local variables in front of aliases. What a namespace has under a name can be seen by the name as
it stands, and by the name in front of array suffixes. A local variable takes the first, so that only
a symbol for an array of the name is left to see it; a form without one is analyzed alike whatever
the namespace has there. -/

namespace Interop

/-- Two namespaces have the same under every name but one. -/
def Namespace.AgreeBut (name : String) (names names' : Namespace) : Prop :=
  ∀ other, other ≠ name → names.lookup? other = names'.lookup? other

def Context.naming (context : Context) (names : Namespace) : Context := { context with names }

@[simp] theorem Context.naming_names (context : Context) (names : Namespace) :
    (context.naming names).names = names := rfl

@[simp] theorem Context.naming_locals (context : Context) (names : Namespace) :
    (context.naming names).locals = context.locals := rfl

@[simp] theorem Context.naming_overflow (context : Context) (names : Namespace) :
    (context.naming names).overflow = context.overflow := rfl

@[simp] theorem Context.findType?_naming (context : Context) (names : Namespace) (name : String) :
    (context.naming names).findType? name = context.findType? name := rfl

@[simp] theorem Context.warn_naming (context : Context) (names : Namespace) (warning : Warning) :
    (context.naming names).warn warning = context.warn warning := rfl

@[simp] theorem nullaryAccess_naming (context : Context) (names : Namespace)
    (receiver : Receiver Expr) (member : Symbol) (site : Site) :
    nullaryAccess (context.naming names) receiver member site =
      nullaryAccess context receiver member site := rfl

@[simp] theorem findOverload?_naming (context : Context) (names : Namespace)
    (receiver : Receiver Expr) (name : String) (arity typeArgCount : Nat) :
    findOverload? (context.naming names) receiver name arity typeArgCount =
      findOverload? context receiver name arity typeArgCount := rfl

/-- No symbol in a form is the name with array suffixes behind it. -/
def Form.WithoutArraysOf (name : String) (form : Form) : Prop :=
  ∀ symbol span, (Form.leaf (.symbol symbol) span).Inside form →
    ∀ rank, symbol.name ≠ arrayName name (rank + 1)

namespace Form.WithoutArraysOf

variable {name : String}

theorem inside {form inner : Form} (h : form.WithoutArraysOf name) (hinner : inner.Inside form) :
    inner.WithoutArraysOf name :=
  fun symbol span hsymbol => h symbol span (hsymbol.trans hinner)

theorem symbol {symbol : Symbol} {span : Span} (h : (splitArrayName symbol.name).2 = 0) :
    (Form.leaf (.symbol symbol) span).WithoutArraysOf name := by
  intro symbol' span' hinside
  cases hinside
  exact fun rank => splitArrayName_rank_eq_zero_iff.mp h _

theorem group {delimiter : Delimiter} {items : List Form} {span : Span}
    (h : ∀ item ∈ items, item.WithoutArraysOf name) :
    (Form.group delimiter items span).WithoutArraysOf name := by
  intro symbol span' hinside
  cases hinside with
  | item hmem hinner => exact h _ hmem symbol span' hinner

end Form.WithoutArraysOf

section

variable {name : String} {names names' : Namespace} {context : Context}

/-! ## Types by name -/

/-- The aliases are asked only for the base, and only where there is a suffix. -/
theorem lookupArray_naming (hnames : Namespace.AgreeBut name names names') (span : Span)
    {base : String} {rank : Nat} (hbase : rank ≠ 0 → base ≠ name) :
    lookupArray (context.naming names) span base rank =
      lookupArray (context.naming names') span base rank := by
  induction rank with
  | zero => rfl
  | succ rank ih =>
    have hne : base ≠ name := hbase rank.succ_ne_zero
    have hinner := ih fun _ => hne
    simp only [lookupArray, hinner, Context.findType?_naming, Context.naming_names]
    cases rank with
    | zero =>
      have halias : names.lookup? (arrayName base 0) = names'.lookup? (arrayName base 0) :=
        hnames base hne
      simp only [halias]
    | succ rank => simp only [Nat.succ_pos, decide_true, Bool.or_true, if_true]

theorem symbolType?_naming (hnames : Namespace.AgreeBut name names names')
    (hbound : context.locals.binds { name }) {symbol : Symbol} (span : Span)
    (hsymbol : ∀ rank, symbol.name ≠ arrayName name (rank + 1)) :
    symbolType? (context.naming names) symbol span =
      symbolType? (context.naming names') symbol span := by
  have hlookup : lookupType (context.naming names) symbol.name span =
      lookupType (context.naming names') symbol.name span := by
    refine lookupArray_naming hnames span fun (hrank : (splitArrayName symbol.name).2 ≠ 0)
      (hbase : (splitArrayName symbol.name).1 = name) => ?_
    obtain ⟨rank, hrank⟩ := Nat.exists_eq_succ_of_ne_zero hrank
    have hname := arrayName_splitArrayName symbol.name
    rw [hrank, hbase] at hname
    exact hsymbol rank hname.symm
  unfold symbolType?
  rw [Context.naming_locals, Context.naming_locals, Context.naming_names, Context.naming_names,
    hlookup]
  by_cases hhidden : context.locals.binds symbol || symbol.isQualified
  · rw [if_pos hhidden, if_pos hhidden]
  · rw [if_neg hhidden, if_neg hhidden]
    -- A symbol that is not hidden is not the local variable.
    have hne : symbol.name ≠ name := by
      rintro rfl
      rcases symbol with ⟨_ | qualifier, name⟩
      · exact hhidden (by rw [hbound, Bool.true_or])
      · exact hhidden (Bool.or_true _)
    simp only [hnames symbol.name hne, Context.findType?_naming]

theorem symbolExpr_naming (hnames : Namespace.AgreeBut name names names')
    (hbound : context.locals.binds { name }) {symbol : Symbol} (span : Span)
    (hsymbol : ∀ rank, symbol.name ≠ arrayName name (rank + 1)) :
    symbolExpr (context.naming names) symbol span =
      symbolExpr (context.naming names') symbol span := by
  simp only [symbolExpr, Context.naming_locals, Context.naming_names,
    symbolType?_naming hnames hbound span hsymbol]
  cases hlocal : context.locals.lookup? symbol with
  | some binding => rfl
  | none =>
    rcases symbol with ⟨_ | qualifier, text⟩
    · have hne : text ≠ name := by
        rintro rfl
        rw [LexicalEnv.binds, hlocal] at hbound
        cases hbound
      simp only [hnames text hne]
    · rfl

theorem formType?_naming (hnames : Namespace.AgreeBut name names names')
    (hbound : context.locals.binds { name }) {form : Form} (hform : form.WithoutArraysOf name) :
    formType? (context.naming names) false form = formType? (context.naming names') false form := by
  cases form with
  | group delimiter items span => rfl
  | leaf datum span =>
    cases datum with
    | symbol symbol => exact symbolType?_naming hnames hbound span (hform symbol span .self)
    | _ => rfl

/-- A type argument is a symbol, so that no text is looked up for it. -/
theorem typeArg_naming (hnames : Namespace.AgreeBut name names names')
    (hbound : context.locals.binds { name }) {form : Form} (hform : form.WithoutArraysOf name) :
    typeArg (context.naming names) form = typeArg (context.naming names') form := by
  cases form with
  | group delimiter items span => rfl
  | leaf datum span =>
    cases datum with
    | symbol symbol =>
      have htype := symbolType?_naming hnames hbound span (hform symbol span .self)
      simp only [typeArg, tagType, formType?, htype]
    | _ => rfl

end

/-! ## Analyzers -/

/-- An analyzer that does not see what the namespace has under a name of a local variable. -/
def IsBlindTo (name : String) (names names' : Namespace) (a : Analyzer) : Prop :=
  ∀ (context : Context) (form : Form), context.locals.binds { name } →
    form.WithoutArraysOf name → a (context.naming names) form = a (context.naming names') form

section

variable {name : String} {names names' : Namespace} {context : Context} {a : Analyzer}
  (hnames : Namespace.AgreeBut name names names') (ha : IsBlindTo name names names' a)
  (hbound : context.locals.binds { name })

include ha hbound in
theorem argument_naming {form : Form} (hform : form.WithoutArraysOf name) :
    argument a (context.naming names) form = argument a (context.naming names') form := by
  have hvalue := ha { context with assigning := false } form hbound hform
  unfold argument
  split
  · rfl
  · exact congrArg (· >>= _) hvalue

include hnames ha hbound

theorem targetReceiver_naming {target : Form} (htarget : target.WithoutArraysOf name) :
    targetReceiver a (context.naming names) target =
      targetReceiver a (context.naming names') target := by
  have hvalue := ha { context with assigning := false } target hbound htarget
  unfold targetReceiver
  rw [formType?_naming hnames hbound htarget]
  refine Logged.bind_congr fun type _ => ?_
  cases type with
  | some type => rfl
  | none => exact congrArg (· >>= _) hvalue

theorem callAccess_naming (receiver : Receiver Expr) {member : Form} {rest : List Form}
    (site : Site) (hmember : member.WithoutArraysOf name)
    (hrest : ∀ form ∈ rest, form.WithoutArraysOf name) :
    callAccess a (context.naming names) receiver member rest site =
      callAccess a (context.naming names') receiver member rest site := by
  unfold callAccess
  refine Logged.bind_congr ?_
  rintro ⟨symbol, tail⟩ hparts
  have htail : ∀ form ∈ tail, form.WithoutArraysOf name := by
    intro form hform
    rcases callParts_mem hparts hform with hmem | ⟨hinside, -⟩
    · exact hrest form hmem
    · exact hmember.inside hinside
  have htypes : (splitTypeArgs tail).1.mapM (typeArgs (context.naming names)) =
      (splitTypeArgs tail).1.mapM (typeArgs (context.naming names')) := by
    cases hclause : (splitTypeArgs tail).1 with
    | none => rw [Option.mapM_none, Option.mapM_none]
    | some clause =>
      have heach : typeArgs (context.naming names) clause =
          typeArgs (context.naming names') clause :=
        Logged.mapM_congr fun form hform => by
          obtain ⟨item, hitem, hinside⟩ := splitTypeArgs_clause_inside hclause hform
          exact typeArg_naming hnames hbound ((htail item hitem).inside hinside)
      simp only [Option.mapM_some, heach]
  have hargs : arguments a (context.naming names) (splitTypeArgs tail).2 =
      arguments a (context.naming names') (splitTypeArgs tail).2 :=
    Logged.mapM_congr fun form hform =>
      argument_naming ha hbound (htail form (splitTypeArgs_mem hform))
  simp only [htypes, hargs, findOverload?_naming, Context.warn_naming, Context.naming_overflow]

theorem analyzeAccess_naming {form : Form} (hform : form.WithoutArraysOf name) :
    analyzeAccess a (context.naming names) form = analyzeAccess a (context.naming names') form := by
  unfold analyzeAccess
  cases hlist : form.list? with
  | none => rfl
  | some items =>
    have hitem : ∀ item ∈ items, item.WithoutArraysOf name :=
      fun item hmem => hform.inside (.of_list? hlist hmem)
    match items, hitem with
    | [], _ | [_], _ | [_, _], _ => rfl
    | marker :: target :: member :: rest, hitem =>
      have hreceiver := targetReceiver_naming hnames ha hbound (hitem target (by simp))
      have hrest : ∀ item ∈ rest, item.WithoutArraysOf name :=
        fun item hmem => hitem item (by simp [hmem])
      have hcall (receiver : Receiver Expr) := callAccess_naming hnames ha hbound receiver
        (context.site form.span) (hitem member (by simp)) hrest
      dsimp only
      rw [hreceiver]
      refine Logged.bind_congr fun receiver _ => ?_
      cases member.symbol? with
      | none => exact hcall receiver
      | some symbol =>
        cases rest with
        | nil => exact (nullaryAccess_naming ..).trans (nullaryAccess_naming ..).symm
        | cons first rest => exact hcall receiver

theorem assignExpr_naming {items : List Form} (hitems : ∀ item ∈ items, item.WithoutArraysOf name)
    (span : Span) :
    assignExpr a (context.naming names) items span =
      assignExpr a (context.naming names') items span := by
  unfold assignExpr
  split
  · rename_i marker target value
    have hassigned : ({ context with assigning := true } : Context).locals.binds { name } := hbound
    have htarget := analyzeAccess_naming hnames ha hassigned (hitems target (by simp))
    have hvalue := ha { context with assigning := false } value hbound (hitems value (by simp))
    split
    · rfl
    · refine (congrArg (· >>= _) htarget).trans (Logged.bind_congr fun node _ => ?_)
      split
      · rfl
      · exact congrArg (· >>= _) hvalue
  · rfl

end

section

variable {name : String} {names names' : Namespace}

theorem analyzeStep_isBlindTo (hnames : Namespace.AgreeBut name names names') {a : Analyzer}
    (ha : IsBlindTo name names names' a) : IsBlindTo name names names' (analyzeStep a) := by
  intro context form hbound hform
  cases form with
  | leaf datum span =>
    cases datum with
    | symbol symbol => exact symbolExpr_naming hnames hbound span (hform symbol span .self)
    | _ => rfl
  | group delimiter items span =>
    have hitems : ∀ item ∈ items, item.WithoutArraysOf name :=
      fun item hmem => hform.inside (.of_mem hmem)
    simp only [analyzeStep, analyzeAccess_naming hnames ha hbound hform,
      assignExpr_naming hnames ha hbound hitems]

theorem analyzeUpTo_isBlindTo (hnames : Namespace.AgreeBut name names names') (depth : Nat) :
    IsBlindTo name names names' (analyzeUpTo depth) := by
  induction depth with
  | zero => exact analyzeStep_isBlindTo hnames fun _ _ _ _ => rfl
  | succ depth ih => exact analyzeStep_isBlindTo hnames ih

/-- **Local variables outrank aliases.** Whatever a namespace has under the name of a local variable,
a type, a variable or nothing, makes no difference to a form in which no symbol is the name with
array suffixes: it is analyzed to the same expression or with the same error, by the same questions
to the host and with the same warnings. -/
theorem analyze_shadowed {context : Context} {form : Form}
    (hbound : context.locals.binds { name }) (hnames : Namespace.AgreeBut name names names')
    (hform : form.WithoutArraysOf name) :
    analyze { context with names } form = analyze { context with names := names' } form :=
  analyzeUpTo_isBlindTo hnames form.depth context form hbound hform

/-- `(. Math (Max (type-args int) Math (by-ref Math)))` with a local variable `Math`, over namespaces
with and without an alias for it. -/
theorem analyze_shadowed_math :
    let symbol (name : String) : Form := .leaf (.symbol { name }) {}
    let list (items : List Form) : Form := .group .paren items {}
    let form := list [symbol ".", symbol "Math", list [symbol "Max", list [symbol "type-args",
      symbol "int"], symbol "Math", list [symbol "by-ref", symbol "Math"]]]
    let names : Namespace := { name := "user" }
    let names' := names.addAlias "Math" (.reference "System.Math")
    let context : Context :=
      { host := Catalog.builtin.host, names, locals := LexicalEnv.bind {} "Math" none,
        source := "math" }
    names.lookup? "Math" = none ∧ names'.lookup? "Math" = some (.type (.reference "System.Math")) ∧
      analyze { context with names } form = analyze { context with names := names' } form := by
  intro symbol list form names names' context
  have hsymbol (text : String) (h : (splitArrayName text).2 = 0) :
      (symbol text).WithoutArraysOf "Math" := .symbol h
  have hform : form.WithoutArraysOf "Math" := by
    refine .group ?_
    simp only [List.forall_mem_cons]
    refine ⟨hsymbol _ (by decide), hsymbol _ (by decide), .group ?_, List.forall_mem_nil _⟩
    simp only [List.forall_mem_cons]
    refine ⟨hsymbol _ (by decide), .group ?_, hsymbol _ (by decide), .group ?_,
      List.forall_mem_nil _⟩
    · simp only [List.forall_mem_cons]
      exact ⟨hsymbol _ (by decide), hsymbol _ (by decide), List.forall_mem_nil _⟩
    · simp only [List.forall_mem_cons]
      exact ⟨hsymbol _ (by decide), hsymbol _ (by decide), List.forall_mem_nil _⟩
  have hnames : Namespace.AgreeBut "Math" names names' := by
    intro other hother
    have hother : (other == "Math") = false := beq_eq_false_iff_ne.mpr hother
    simp only [names', Namespace.lookup?, Namespace.addAlias, List.lookup_cons, hother]
  have hbound : context.locals.binds { name := "Math" } := by decide
  exact ⟨rfl, rfl, analyze_shadowed hbound hnames hform⟩

end

end Interop
