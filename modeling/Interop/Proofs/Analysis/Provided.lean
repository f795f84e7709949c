import Interop.Proofs.Analysis.Parts
import Interop.Proofs.Catalog.Lookup

/-! What expressions that were analyzed over a catalog have from it: their members, and for a call
with a known method its name and the number of its arguments. -/

namespace Interop

/-- The member of a node, if it is known, is one of the catalog's. A known method is what the call
names, with as many parameters as there are arguments. -/
def Catalog.Provides (catalog : Catalog) : Access Expr → Prop
  | .staticField _ field _ => field ∈ catalog.fields
  | .instanceField _ _ field _ => ∀ known ∈ field, known ∈ catalog.fields
  | .staticProperty _ property _ | .instanceProperty _ property _ => property ∈ catalog.properties
  | .staticMethod _ call _ | .instanceMethod _ call _ => ∀ method ∈ call.method,
      method ∈ catalog.methods ∧ method.name = call.name ∧ method.arity = call.arity
  | .dynamicMember .. => True

theorem Catalog.method?_provides {catalog : Catalog} {isStatic : Bool} {type : HostType}
    {name : String} {arity : Nat} {method : Method}
    (h : catalog.method? isStatic type name arity = some method) :
    method ∈ catalog.methods ∧ method.name = name ∧ method.arity = arity := by
  obtain ⟨hmem, hname, _, harity⟩ := method?_eq_some h
  exact ⟨hmem, hname, harity⟩

theorem Resolved.provides {catalog : Catalog} {node : Access Expr}
    (h : Resolved catalog.host node) : catalog.Provides node := by
  cases h with
  | staticField h => exact (Catalog.field?_eq_some h).1
  | staticProperty h => exact (Catalog.property?_eq_some h).1
  | staticNullary h =>
    rintro method ⟨⟩
    exact Catalog.method?_provides h
  | staticCall h =>
    intro method hmethod
    exact Catalog.method?_provides (h method hmethod).1
  | instanceField _ h =>
    rintro field ⟨⟩
    exact (Catalog.field?_eq_some h).1
  | deferredField =>
    rintro field ⟨⟩
  | instanceProperty _ h => exact (Catalog.property?_eq_some h).1
  | instanceNullary _ h =>
    rintro method ⟨⟩
    exact Catalog.method?_provides h
  | instanceCall h =>
    intro method hmethod
    obtain ⟨_, _, hhost, _⟩ := h method hmethod
    exact Catalog.method?_provides hhost
  | dynamicMember => trivial

/-- Every access in an expression is provided by the catalog that it was analyzed over. -/
theorem analyze_provides {catalog : Catalog} {context : Context} {form : Form} {expr : Expr}
    (hhost : context.host = catalog.host) (h : (analyze context form).result = .ok expr)
    {node : Access Expr} (hnode : .access node ∈ expr.parts) : catalog.Provides node := by
  obtain ⟨source, _, assigning, hsource⟩ := analyze_gives h _ hnode
  have hresolved := analyzeAccess_resolved hsource
  rw [show ({ context with assigning } : Context).host = catalog.host from hhost] at hresolved
  exact hresolved.provides

/-! ## A call over a small catalog -/

def maxMethod : Method where
  declaring := .reference "Math"
  name := "Max"
  params := [.primitive .int32, .primitive .int32]
  returns := .primitive .int32
  isStatic := true
  genericArity := 0

/-- A catalog with this method alone. -/
def maxCatalog : Catalog where
  entries := [("Math", { type := .reference "Math", methods := [maxMethod] })]
  declared := ["Math"]

/-- One local variable, an integer `n`. -/
def maxContext : Context where
  host := maxCatalog.host
  names := { name := "user" }
  locals := LexicalEnv.bind {} "n" (some (.primitive .int32))
  source := "max"

/-- `(. Math Max 1 (by-ref n))` -/
def maxForm : Form :=
  let word (name : String) : Form := .leaf (.symbol { name }) {}
  let list (items : List Form) : Form := .group .paren items {}
  list [word ".", word "Math", word "Max", .leaf (.int 1) {}, list [word "by-ref", word "n"]]

def maxCall : Call Expr :=
  let n : LocalBinding := { name := "n", index := 0, tag := some (.primitive .int32) }
  let args := [{ value := .constant (.int 1) }, { value := .localVar n, byRef := some n }]
  { name := "Max", args, method := some maxMethod, overflow := .checked }

def maxNode : Access Expr :=
  .staticMethod (.reference "Math") maxCall { source := "max", span := {} }

theorem analyze_maxForm : (analyze maxContext maxForm).result = .ok (.access maxNode) := rfl

end Interop
