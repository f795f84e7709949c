import Interop.Proofs.Analysis.Inversion

/-! The parts of what a form was analyzed to. Every access in an expression, at any depth, is what
a form inside the analyzed one was analyzed to, and every local variable is bound where the form
stands. -/

namespace Interop

/-- A local variable is bound where the form stands. -/
def Context.Binds (context : Context) (binding : LocalBinding) : Prop :=
  ∃ symbol, context.locals.lookup? symbol = some binding

/-- A form is analyzed to a node, as the target of an assignment or not. -/
def Context.Writes (context : Context) (form : Form) (node : Access Expr) : Prop :=
  ∃ assigning, (analyzeAccess analyze { context with assigning } form).result = .ok node

/-- Where a part of an analyzed form comes from. -/
def Context.Gives (context : Context) (form : Form) : Part → Prop
  | .access node => ∃ source : Form, source.Inside form ∧ context.Writes source node
  | .localVar binding | .byRef binding => context.Binds binding

theorem Context.Gives.mono {context : Context} {inner form : Form} {part : Part}
    (h : context.Gives inner part) (hinside : inner.Inside form) : context.Gives form part := by
  cases part with
  | access node =>
    obtain ⟨source, hsource, hnode⟩ := h
    exact ⟨source, hsource.trans hinside, hnode⟩
  | localVar binding | byRef binding => exact h

theorem byRefLocal_binds {context : Context} {form : Form} {binding : LocalBinding}
    (h : byRefLocal context form = .ok binding) : context.Binds binding := by
  obtain ⟨_, _, symbol, _, _, hlookup⟩ := byRefLocal_eq_ok h
  exact ⟨symbol, hlookup⟩

/-- A datum has no parts, unless it names a local variable. -/
theorem datumExpr_gives {context : Context} {span : Span} {datum : Datum} {expr : Expr}
    (h : (datumExpr context span datum).result = .ok expr) (form : Form) :
    ∀ part ∈ expr.parts, context.Gives form part := by
  intro part hpart
  rcases datumExpr_cases h with ⟨literal, rfl⟩ | ⟨symbol, binding, hbinding, rfl⟩ | ⟨name, rfl⟩ |
      ⟨type, rfl⟩
  · cases hpart
  · rw [List.mem_singleton.mp hpart]
    exact ⟨symbol, hbinding⟩
  · cases hpart
  · cases hpart

/-! ## The forms inside a form -/

/-- What is claimed of the forms inside one, on the way to `analyze_gives`. -/
def GivesBelow (form : Form) : Prop :=
  ∀ context inner expr, inner.depth < form.depth → (analyze context inner).result = .ok expr →
    ∀ part ∈ expr.parts, context.Gives inner part

section

variable {context : Context} {form : Form}

theorem argument_gives (ih : GivesBelow form) {inner : Form} {arg : Argument Expr}
    (hinside : inner.Inside form) (hdepth : inner.depth < form.depth)
    (h : (argument analyze context inner).result = .ok arg) :
    ∀ part ∈ argumentParts arg, context.Gives form part := by
  intro part hpart
  rcases argument_cases h with ⟨binding, hbinding, rfl⟩ | ⟨value, hvalue, rfl⟩
  · have hbinds : context.Binds binding := byRefLocal_binds hbinding
    simp only [argumentParts, Expr.parts, List.mem_cons, List.not_mem_nil, or_false] at hpart
    rcases hpart with rfl | rfl <;> exact hbinds
  · exact (ih _ inner value hdepth hvalue part hpart).mono hinside

theorem arguments_gives (ih : GivesBelow form) {forms : List Form} {args : List (Argument Expr)}
    (hforms : ∀ inner ∈ forms, inner.Inside form ∧ inner.depth < form.depth)
    (h : (arguments analyze context forms).result = .ok args) :
    ∀ part ∈ argumentsParts args, context.Gives form part := by
  intro part hpart
  obtain ⟨arg, harg, hpart⟩ := mem_argumentsParts.mp hpart
  obtain ⟨inner, hinner, hok⟩ := Logged.exists_of_mem_mapM h harg
  obtain ⟨hinside, hdepth⟩ := hforms inner hinner
  exact argument_gives ih hinside hdepth hok part hpart

theorem targetReceiver_gives (ih : GivesBelow form) {target : Form} {receiver : Receiver Expr}
    (hinside : target.Inside form) (hdepth : target.depth < form.depth)
    (h : (targetReceiver analyze context target).result = .ok receiver) :
    ∀ part ∈ receiver.parts, context.Gives form part := by
  intro part hpart
  rcases targetReceiver_cases h with ⟨type, _, rfl⟩ | ⟨value, _, hvalue, rfl⟩
  · cases hpart
  · exact (ih _ target value hdepth hvalue part hpart).mono hinside

/-- What a node is applied to comes from the forms that its own form is written with. -/
theorem analyzeAccess_gives (ih : GivesBelow form) {node : Access Expr}
    (h : (analyzeAccess analyze context form).result = .ok node) :
    ∀ part ∈ innerParts node, context.Gives form part := by
  obtain ⟨marker, target, member, rest, receiver, hlist, hreceiver, h⟩ := analyzeAccess_cases h
  have hmem : target ∈ marker :: target :: member :: rest := by simp
  have hreceiver := targetReceiver_gives ih (.of_list? hlist hmem)
    (Form.depth_lt_of_list? hlist hmem) hreceiver
  rcases h with ⟨symbol, _, _, h⟩ | ⟨_, h⟩
  · rw [(nullaryAccess_cases h).2.1]
    exact hreceiver
  · obtain ⟨symbol, tail, call, hparts, _, _, hargs, _, rfl⟩ := callAccess_cases h
    rw [innerParts_methodNode]
    intro part hpart
    rcases List.mem_append.mp hpart with hpart | hpart
    · exact hreceiver part hpart
    · exact arguments_gives ih (fun inner => argument_inside hlist hparts) hargs part hpart

theorem assignExpr_gives {delimiter : Delimiter} {items : List Form} {span : Span} {expr : Expr}
    (ih : GivesBelow (.group delimiter items span))
    (h : (assignExpr analyze context items span).result = .ok expr) :
    ∀ part ∈ expr.parts, context.Gives (.group delimiter items span) part := by
  obtain ⟨marker, target, value, node, stored, rfl, hnode, _, hstored, rfl⟩ := assignExpr_cases h
  have hbelow : ∀ item ∈ [marker, target, value],
      item.Inside (.group delimiter [marker, target, value] span) ∧
        item.depth < (Form.group delimiter [marker, target, value] span).depth :=
    fun item hitem => ⟨.of_mem hitem, Form.depth_lt_of_mem hitem⟩
  obtain ⟨htarget, htargetDepth⟩ := hbelow target (by simp)
  obtain ⟨hvalue, hvalueDepth⟩ := hbelow value (by simp)
  have hinner := analyzeAccess_gives (fun context inner expr hless =>
    ih context inner expr (Nat.lt_trans hless htargetDepth)) hnode
  intro part hpart
  simp only [Expr.parts, List.mem_cons, List.mem_append] at hpart
  rcases hpart with rfl | hpart | hpart
  · exact ⟨target, htarget, true, hnode⟩
  · exact (hinner part hpart).mono htarget
  · exact (ih _ value stored hvalueDepth hstored part hpart).mono hvalue

end

/-- **Nothing in an expression is made up.** Every access in the result of an analysis is what a
form inside the analyzed one was analyzed to, and every local variable is bound. -/
theorem analyze_gives {context : Context} {form : Form} {expr : Expr}
    (h : (analyze context form).result = .ok expr) :
    ∀ part ∈ expr.parts, context.Gives form part := by
  -- Analysis hands on less deep forms, so the induction is on the depth.
  induction hd : form.depth using Nat.strongRecOn generalizing context form expr with
  | _ depth ih =>
    have below : GivesBelow form := fun context inner expr hless hinner =>
      ih inner.depth (hd ▸ hless) hinner rfl
    rw [analyze_eq] at h
    rcases analyzeStep_cases h with ⟨_, _, _, hdatum⟩ | ⟨node, hnode, rfl⟩ |
        ⟨_, _, _, rfl, hassign⟩
    · exact datumExpr_gives hdatum _
    · intro part hpart
      rcases List.mem_cons.mp hpart with rfl | hpart
      · exact ⟨_, .self, context.assigning, hnode⟩
      · exact analyzeAccess_gives below hnode part hpart
    · exact assignExpr_gives below hassign

end Interop
