import Interop.Proofs.Analysis.Inversion

/-! Values inside what a form was analyzed to. Targets, arguments and assigned values are analyzed on
their own and not to be assigned to, so each expression that stands inside another as a value is
what some form inside the analyzed one means by itself. -/

namespace Interop

theorem analyze_localVar {context : Context} {form : Form} {symbol : Symbol}
    {binding : LocalBinding} (hsymbol : form.symbol? = some symbol)
    (hbinding : context.locals.lookup? symbol = some binding) :
    (analyze context form).result = .ok (.localVar binding) := by
  cases form with
  | group => cases hsymbol
  | leaf datum span =>
    cases datum with
    | symbol name =>
      cases hsymbol
      simp only [analyze_eq, analyzeStep, datumExpr, symbolExpr, hbinding]
      rfl
    | _ => cases hsymbol

/-- Only a symbol means a local variable, and it means the one that it stands for. -/
theorem symbol?_of_analyze {context : Context} {form : Form} {binding : LocalBinding}
    (h : (analyze context form).result = .ok (.localVar binding)) :
    ∃ symbol, form.symbol? = some symbol ∧ context.locals.lookup? symbol = some binding := by
  rw [analyze_eq] at h
  rcases analyzeStep_cases h with ⟨datum, span, rfl, hdatum⟩ | ⟨_, _, hexpr⟩ |
      ⟨_, _, _, rfl, hassign⟩
  · cases datum with
    | symbol symbol =>
      simp only [datumExpr, symbolExpr] at hdatum
      split at hdatum
      · rename_i found hlookup
        cases Logged.pure_ok hdatum
        exact ⟨symbol, rfl, hlookup⟩
      · split at hdatum
        · cases hdatum
        · split at hdatum
          · cases hdatum
          · cases hdatum
          · obtain ⟨type, _, hdatum⟩ := Logged.bind_ok hdatum
            cases type <;> cases hdatum
    | _ => cases hdatum
  · cases hexpr
  · obtain ⟨_, _, _, _, _, _, _, _, _, hexpr⟩ := assignExpr_cases hassign
    cases hexpr

variable {context : Context} {form : Form}

theorem argument_value {arg : Argument Expr}
    (h : (argument analyze context form).result = .ok arg) :
    ∃ source : Form, source.Inside form ∧
      (analyze { context with assigning := false } source).result = .ok arg.value := by
  rcases argument_cases h with ⟨binding, hbinding, rfl⟩ | ⟨value, hvalue, rfl⟩
  · obtain ⟨marker, operand, symbol, hlist, hsymbol, hlookup⟩ := byRefLocal_eq_ok hbinding
    exact ⟨operand, .of_list? hlist (by simp), analyze_localVar hsymbol hlookup⟩
  · exact ⟨form, .self, hvalue⟩

/-- What a node is applied to was analyzed on its own. -/
theorem analyzeAccess_operand {node : Access Expr} {operand : Expr}
    (h : (analyzeAccess analyze context form).result = .ok node) (hoperand : operand ∈ node.operands) :
    ∃ source : Form, source.Inside form ∧
      (analyze { context with assigning := false } source).result = .ok operand := by
  obtain ⟨marker, target, member, rest, receiver, hlist, hreceiver, h⟩ := analyzeAccess_cases h
  have htarget : operand ∈ receiver.target?.toList → ∃ source : Form, source.Inside form ∧
      (analyze { context with assigning := false } source).result = .ok operand := by
    intro hmem
    rcases targetReceiver_cases hreceiver with ⟨type, _, rfl⟩ | ⟨value, _, hvalue, rfl⟩
    · cases hmem
    · obtain rfl : operand = value := List.mem_singleton.mp hmem
      exact ⟨target, .of_list? hlist (by simp), hvalue⟩
  rcases h with ⟨symbol, _, _, h⟩ | ⟨_, h⟩
  · rw [(nullaryAccess_cases h).2.2] at hoperand
    exact htarget hoperand
  · obtain ⟨symbol, tail, call, hparts, _, _, hargs, _, rfl⟩ := callAccess_cases h
    rw [operands_methodNode] at hoperand
    rcases List.mem_append.mp hoperand with hmem | hmem
    · exact htarget hmem
    · obtain ⟨arg, harg, rfl⟩ := List.mem_map.mp hmem
      obtain ⟨inner, hinner, hok⟩ := Logged.exists_of_mem_mapM hargs harg
      obtain ⟨source, hsource, hvalue⟩ := argument_value hok
      exact ⟨source, hsource.trans (argument_inside hlist hparts hinner).1, hvalue⟩

theorem analyze_child {expr child : Expr} (h : (analyze context form).result = .ok expr)
    (hchild : child ∈ expr.children) :
    ∃ source : Form, source.Inside form ∧
      (analyze { context with assigning := false } source).result = .ok child := by
  rw [analyze_eq] at h
  rcases analyzeStep_cases h with ⟨_, _, rfl, hdatum⟩ | ⟨node, hnode, rfl⟩ |
      ⟨_, _, _, rfl, hassign⟩
  · rcases datumExpr_cases hdatum with ⟨_, rfl⟩ | ⟨_, _, _, rfl⟩ | ⟨_, rfl⟩ | ⟨_, rfl⟩ <;>
      cases hchild
  · exact analyzeAccess_operand hnode hchild
  · obtain ⟨marker, target, value, node, stored, rfl, hnode, _, hstored, rfl⟩ :=
      assignExpr_cases hassign
    rcases List.mem_append.mp hchild with hmem | hmem
    · obtain ⟨source, hsource, hvalue⟩ := analyzeAccess_operand hnode hmem
      exact ⟨source, hsource.trans (.of_mem (by simp)), hvalue⟩
    · obtain rfl : child = stored := List.mem_singleton.mp hmem
      exact ⟨value, .of_mem (by simp), hstored⟩

/-- **Every value was analyzed on its own.** An expression inside what a form means is the whole of
it, or what a form inside means where nothing is assigned to. -/
theorem analyze_inside {expr inner : Expr} (h : (analyze context form).result = .ok expr)
    (hinner : inner.Inside expr) :
    inner = expr ∨ ∃ source : Form, source.Inside form ∧
      (analyze { context with assigning := false } source).result = .ok inner := by
  induction hinner generalizing context form with
  | self => exact .inl rfl
  | child hchild _ ih =>
    obtain ⟨item, hitem, hmeans⟩ := analyze_child h hchild
    rcases ih hmeans with rfl | ⟨source, hsource, hvalue⟩
    · exact .inr ⟨item, hitem, hmeans⟩
    · exact .inr ⟨source, hsource.trans hitem, hvalue⟩

end Interop
