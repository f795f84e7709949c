import Interop.Proofs.Analysis.Provided
import Interop.Catalog.Builtin

/-! Type parameters of known methods. A call keeps a method only if it has as many type parameters
as type arguments were written. A member alone is not held to that: with no type arguments it may
still become a call of a generic method. -/

namespace Interop

namespace Form

/-- Whether an access is written as a member alone. -/
def isMemberAlone (form : Form) : Bool :=
  match form.list? with
  | some [_, _, member] => member.symbol?.isSome
  | _ => false

/-- The number of type arguments that are written in an access. -/
def typeArgCount (form : Form) : Nat :=
  match form.list? with
  | some (_ :: _ :: member :: rest) =>
    match callParts member rest form.span with
    | .ok (_, tail) => ((splitTypeArgs tail).1.getD []).length
    | .error _ => 0
  | _ => 0

theorem typeArgCount_of_isMemberAlone {form : Form} (h : form.isMemberAlone) :
    form.typeArgCount = 0 := by
  unfold isMemberAlone at h
  split at h
  · rename_i marker target member hlist
    obtain ⟨symbol, hsymbol⟩ := Option.isSome_iff_exists.mp h
    have hleaf : member.list? = none := by
      cases member with
      | leaf => rfl
      | group => cases hsymbol
    have hparts : callParts member [] form.span = .ok (symbol, []) := by
      simp [callParts, hleaf, hsymbol, bind, Except.bind, pure, Except.pure]
    simp [typeArgCount, hlist, hparts, splitTypeArgs]
  · cases h

/-- The type arguments of a call are as many as were written. -/
theorem typeArgCount_eq {form marker target member : Form} {rest tail : List Form} {symbol : Symbol}
    {call : Call Expr} (hlist : form.list? = some (marker :: target :: member :: rest))
    (hparts : callParts member rest form.span = .ok (symbol, tail))
    (htypes : call.typeArgs.map List.length = (splitTypeArgs tail).1.map List.length) :
    form.typeArgCount = call.typeArgList.length := by
  simp only [typeArgCount, hlist, hparts, Call.typeArgList]
  cases hclause : (splitTypeArgs tail).1 <;> cases hcount : call.typeArgs <;>
    simp_all

end Form

/-- A call has as many type parameters as type arguments, and is no member alone. -/
theorem analyzeAccess_genericArity {analyze : Analyzer} {context : Context} {form : Form}
    {node : Access Expr} {call : Call Expr} {method : Method}
    (h : (analyzeAccess analyze context form).result = .ok node) (hcall : node.call? = some call)
    (hmethod : call.method = some method) :
    form.isMemberAlone ∨ method.genericArity = form.typeArgCount := by
  obtain ⟨marker, target, member, rest, receiver, hlist, _, h⟩ := analyzeAccess_cases h
  rcases h with ⟨symbol, hsymbol, rfl, _⟩ | ⟨_, h⟩
  · exact .inl (by simp [Form.isMemberAlone, hlist, hsymbol])
  · obtain ⟨symbol, tail, found, hparts, _, htypes, _, hoverload, rfl⟩ := callAccess_cases h
    rw [Receiver.call?_methodNode] at hcall
    cases hcall
    rw [hmethod] at hoverload
    rw [Form.typeArgCount_eq hlist hparts htypes]
    exact .inr (findOverload?_cases hoverload).1

/-- **When a known method fits the type arguments.** Every known method in an expression comes from
an access inside the analyzed form. Whatever access its call is written as, it has as many type
parameters as type arguments were written there, unless it is a generic method and was written as
a member alone. -/
theorem genericArity_eq_iff {context : Context} {form : Form} {expr : Expr}
    (h : (analyze context form).result = .ok expr) {node : Access Expr} {call : Call Expr}
    {method : Method} (hnode : .access node ∈ expr.parts) (hcall : node.call? = some call)
    (hmethod : call.method = some method) :
    (∃ source : Form, source.Inside form ∧ context.Writes source node) ∧
      ∀ source, context.Writes source node → (method.genericArity = source.typeArgCount ↔
        (source.isMemberAlone → method.genericArity = 0)) := by
  refine ⟨analyze_gives h _ hnode, ?_⟩
  rintro source ⟨assigning, hsource⟩
  constructor
  · intro harity halone
    rw [harity, Form.typeArgCount_of_isMemberAlone halone]
  · intro hplain
    rcases analyzeAccess_genericArity hsource hcall hmethod with halone | harity
    · rw [hplain halone, Form.typeArgCount_of_isMemberAlone halone]
    · exact harity

theorem genericArity_max :
    ∃ source : Form, source.Inside maxForm ∧ maxContext.Writes source maxNode := by
  have hnode : .access maxNode ∈ (Expr.access maxNode).parts := by simp [Expr.parts]
  have hcall : maxNode.call? = some maxCall := rfl
  have hmethod : maxCall.method = some maxMethod := rfl
  exact (genericArity_eq_iff analyze_maxForm hnode hcall hmethod).1

/-- `(. System.Array Empty)` over the built-in declarations. -/
theorem genericArity_empty_ne :
    let word (name : String) : Form := .leaf (.symbol { name }) {}
    let form : Form := .group .paren [word ".", word "System.Array", word "Empty"] {}
    let context : Context :=
      { host := Catalog.builtin.host, names := { name := "user" }, source := "empty" }
    ∃ node call method, (analyze context form).result = .ok (.access node) ∧
      node.call? = some call ∧ call.method = some method ∧ form.typeArgCount = 0 ∧
      method.genericArity = 1 := by
  let method : Method :=
    { declaring := .reference "System.Array", name := "Empty", params := [],
      returns := .array .object, isStatic := true, genericArity := 1 }
  let call : Call Expr := { name := "Empty", method := some method, overflow := .checked }
  exact ⟨.staticMethod (.reference "System.Array") call { source := "empty", span := {} }, call,
    method, rfl, rfl, rfl, rfl, rfl⟩

end Interop
