import Interop.Analysis.Form
import Interop.Proofs.Logged
import Interop.Proofs.Form.Inside

/-! The recursion of analysis. A layer of analysis hands on only forms that are less deep than
its own, so a depth that is enough changes nothing, and `analyze` is the fixed point of
`analyzeStep`. -/

namespace Interop

/-! ## Which forms a layer hands on -/

theorem callParts_mem {member form : Form} {rest tail : List Form} {span : Span}
    {symbol : Symbol} (h : callParts member rest span = .ok (symbol, tail)) (hmem : form ∈ tail) :
    form ∈ rest ∨ form.Inside member ∧ form.depth < member.depth := by
  unfold callParts at h
  cases hlist : member.list? with
  | none =>
    simp only [hlist, bind, Except.bind] at h
    split at h
    · cases h; exact .inl hmem
    · cases h
  | some items =>
    simp only [hlist] at h
    split at h
    · cases items with
      | nil => cases h
      | cons head items =>
        simp only [bind, Except.bind] at h
        split at h
        · cases h
          have hitem : form ∈ head :: tail := List.mem_cons_of_mem _ hmem
          exact .inr ⟨.of_list? hlist hitem, Form.depth_lt_of_list? hlist hitem⟩
        · cases h
    · cases h

theorem splitTypeArgs_mem {form : Form} {forms : List Form}
    (h : form ∈ (splitTypeArgs forms).2) : form ∈ forms := by
  cases forms with
  | nil => cases h
  | cons clause args =>
    simp only [splitTypeArgs] at h
    split at h
    · exact List.mem_cons_of_mem _ h
    · exact h

/-- A clause of type arguments is written in front of the arguments. -/
theorem splitTypeArgs_clause_inside {form : Form} {forms clause : List Form}
    (h : (splitTypeArgs forms).1 = some clause) (hmem : form ∈ clause) :
    ∃ item ∈ forms, form.Inside item := by
  cases forms with
  | nil => cases h
  | cons first args =>
    simp only [splitTypeArgs] at h
    split at h
    · obtain ⟨items, hitems, rfl⟩ := Option.map_eq_some_iff.mp h
      exact ⟨first, List.mem_cons_self, .of_list? hitems (List.mem_of_mem_drop hmem)⟩
    · cases h

/-- The arguments of a call are written inside it, in either style. -/
theorem argument_inside {form marker target member inner : Form} {rest tail : List Form}
    {span : Span} {symbol : Symbol} (hlist : form.list? = some (marker :: target :: member :: rest))
    (hparts : callParts member rest span = .ok (symbol, tail))
    (h : inner ∈ (splitTypeArgs tail).2) : inner.Inside form ∧ inner.depth < form.depth := by
  have hitem : ∀ item ∈ marker :: target :: member :: rest,
      item.Inside form ∧ item.depth < form.depth :=
    fun item hitem => ⟨.of_list? hlist hitem, Form.depth_lt_of_list? hlist hitem⟩
  rcases callParts_mem hparts (splitTypeArgs_mem h) with hrest | ⟨hinside, hless⟩
  · exact hitem inner (by simp [hrest])
  · obtain ⟨hmember, hmemberDepth⟩ := hitem member (by simp)
    exact ⟨hinside.trans hmember, Nat.lt_trans hless hmemberDepth⟩

/-! ## Analyzers that agree on less deep forms -/

section

variable {a b : Analyzer}

theorem targetReceiver_congr {context : Context} {target : Form}
    (h : ∀ context, a context target = b context target) :
    targetReceiver a context target = targetReceiver b context target := by
  simp only [targetReceiver, h]

theorem argument_congr {context : Context} {form : Form}
    (h : ∀ context, a context form = b context form) :
    argument a context form = argument b context form := by
  simp only [argument, h]

theorem arguments_congr {context : Context} {forms : List Form}
    (h : ∀ form ∈ forms, ∀ context, a context form = b context form) :
    arguments a context forms = arguments b context forms :=
  Logged.mapM_congr fun form hform => argument_congr (h form hform)

theorem callAccess_congr {context : Context} {receiver : Receiver Expr} {member : Form}
    {rest : List Form} {site : Site}
    (h : ∀ form, form ∈ rest ∨ form.Inside member ∧ form.depth < member.depth →
      ∀ context, a context form = b context form) :
    callAccess a context receiver member rest site
      = callAccess b context receiver member rest site := by
  unfold callAccess
  refine Logged.bind_congr ?_
  rintro ⟨symbol, tail⟩ hparts
  have hargs : arguments a context (splitTypeArgs tail).2
      = arguments b context (splitTypeArgs tail).2 :=
    arguments_congr fun form hform => h form (callParts_mem hparts (splitTypeArgs_mem hform))
  simp only [hargs]

theorem analyzeAccess_congr {context : Context} {form : Form}
    (h : ∀ context inner, inner.depth < form.depth → a context inner = b context inner) :
    analyzeAccess a context form = analyzeAccess b context form := by
  unfold analyzeAccess
  cases hlist : form.list? with
  | none => rfl
  | some items =>
    have hitem : ∀ item ∈ items, item.depth < form.depth :=
      fun item hmem => Form.depth_lt_of_list? hlist hmem
    match items, hitem with
    | [], _ | [_], _ | [_, _], _ => rfl
    | marker :: target :: member :: rest, hitem =>
      have htarget : targetReceiver a context target = targetReceiver b context target :=
        targetReceiver_congr fun context => h context target (hitem target (by simp))
      have hcall : ∀ receiver, callAccess a context receiver member rest (context.site form.span)
          = callAccess b context receiver member rest (context.site form.span) := by
        intro receiver
        refine callAccess_congr ?_
        rintro inner (hinner | ⟨_, hdepth⟩) context
        · exact h context inner (hitem inner (by simp [hinner]))
        · exact h context inner (Nat.lt_trans hdepth (hitem member (by simp)))
      simp only [htarget, hcall]

theorem assignExpr_congr {context : Context} {delimiter : Delimiter} {items : List Form}
    {span : Span}
    (h : ∀ context inner, inner.depth < (Form.group delimiter items span).depth →
      a context inner = b context inner) :
    assignExpr a context items span = assignExpr b context items span := by
  unfold assignExpr
  split
  · rename_i marker target value
    have htarget : target.depth < (Form.group delimiter [marker, target, value] span).depth :=
      Form.depth_lt_of_mem (by simp)
    have hvalue : value.depth < (Form.group delimiter [marker, target, value] span).depth :=
      Form.depth_lt_of_mem (by simp)
    have haccess : ∀ context, analyzeAccess a context target = analyzeAccess b context target :=
      fun context => analyzeAccess_congr fun context inner hinner =>
        h context inner (Nat.lt_trans hinner htarget)
    simp only [haccess, h _ value hvalue]
  · rfl

theorem analyzeStep_congr {context : Context} {form : Form}
    (h : ∀ context inner, inner.depth < form.depth → a context inner = b context inner) :
    analyzeStep a context form = analyzeStep b context form := by
  cases form with
  | leaf => rfl
  | group delimiter items span =>
    simp only [analyzeStep, analyzeAccess_congr h, assignExpr_congr h]

end

/-! ## The fixed point -/

theorem analyzeUpTo_eq_of_depth_le {context : Context} {form : Form} {d e : Nat}
    (hd : form.depth ≤ d) (he : form.depth ≤ e) :
    analyzeUpTo d context form = analyzeUpTo e context form := by
  induction d generalizing e context form with
  | zero =>
    have hnone : ∀ inner : Form, ¬ inner.depth < form.depth := fun inner => by omega
    cases e <;> exact analyzeStep_congr fun _ inner hinner => absurd hinner (hnone inner)
  | succ d ih =>
    cases e with
    | zero => exact analyzeStep_congr fun _ inner hinner => by omega
    | succ e => exact analyzeStep_congr fun _ inner hinner => ih (by omega) (by omega)

/-- Analysis analyzes the forms inside a form by itself. -/
theorem analyze_eq (context : Context) (form : Form) :
    analyze context form = analyzeStep analyze context form := by
  show analyzeUpTo form.depth context form = _
  cases hdepth : form.depth with
  | zero => exact analyzeStep_congr fun _ inner hinner => by omega
  | succ d =>
    refine analyzeStep_congr fun _ inner hinner => ?_
    exact analyzeUpTo_eq_of_depth_le (by omega) (Nat.le_refl _)

end Interop
