import Interop.Proofs.Analysis.Members
import Interop.Proofs.Except

/-! Accesses that are read and accesses that are assigned to. The position of an access is no part
of what it is applied to, of the questions to the host or of the warnings: it is seen only where a
member is left to run time, and there it decides the kind of the node. -/

namespace Interop

/-- What a node that is read becomes where it is assigned to: a member that is left to run time is
then taken for a field. -/
def Access.assigned {α : Type} : Access α → Access α
  | .dynamicMember target name site => .instanceField target name none site
  | node => node

theorem operands_assigned (node : Access Expr) : node.assigned.operands = node.operands := by
  cases node <;> rfl

theorem call?_assigned (node : Access Expr) : node.assigned.call? = node.call? := by
  cases node <;> rfl

/-! ## What an access is applied to -/

section

variable (analyze : Analyzer) (context : Context) (assigning : Bool)

theorem typeArgs_assigning (forms : List Form) :
    typeArgs { context with assigning } forms = typeArgs context forms := by
  have heach : typeArg { context with assigning } = typeArg context := by
    funext form
    simp only [typeArg, tagType, formType?_assigning]
  rw [typeArgs, heach, typeArgs]

theorem targetReceiver_assigning (target : Form) :
    targetReceiver analyze { context with assigning } target =
      targetReceiver analyze context target := by
  simp only [targetReceiver, formType?_assigning]

end

/-! ## The two positions -/

section

variable (analyze : Analyzer) (context : Context)

theorem deferredMember_assigned (target : Expr) (name : String) (site : Site) :
    deferredMember { context with assigning := true } target name site =
      Access.assigned <$> deferredMember { context with assigning := false } target name site :=
  Logged.bind_eq_map rfl fun _ => rfl

theorem nullaryAccess_assigned (receiver : Receiver Expr) (member : Symbol) (site : Site) :
    nullaryAccess { context with assigning := true } receiver member site =
      Access.assigned <$>
        nullaryAccess { context with assigning := false } receiver member site := by
  unfold nullaryAccess
  dsimp only
  cases receiver with
  | static type =>
    refine Logged.bind_eq_map rfl fun found => ?_
    rcases found with _ | field | property | method <;> rfl
  | object target =>
    dsimp only
    cases target.type? with
    | none =>
      simp only [pure_bind]
      exact deferredMember_assigned context target _ site
    | some type =>
      refine Logged.bind_eq_map rfl fun found => ?_
      rcases found with _ | field | property | method
      · exact deferredMember_assigned context target _ site
      · rfl
      · rfl
      · rfl

/-- A call is a call in both positions. -/
theorem callAccess_assigned (receiver : Receiver Expr) (member : Form) (rest : List Form)
    (site : Site) :
    callAccess analyze { context with assigning := true } receiver member rest site =
      Access.assigned <$>
        callAccess analyze { context with assigning := false } receiver member rest site := by
  unfold callAccess
  refine Logged.bind_eq_map rfl fun parts => ?_
  have htypes : typeArgs { context with assigning := true } =
      typeArgs { context with assigning := false } :=
    funext fun forms => (typeArgs_assigning context true forms).trans
      (typeArgs_assigning context false forms).symm
  dsimp only
  rw [htypes]
  refine Logged.bind_eq_map rfl fun types => ?_
  refine Logged.bind_eq_map rfl fun args => ?_
  refine Logged.bind_eq_map rfl fun method => ?_
  cases receiver with
  | static type =>
    split
    · exact Logged.bind_eq_map rfl fun _ => rfl
    · rfl
  | object target =>
    split
    · exact Logged.bind_eq_map rfl fun _ => rfl
    · rfl

theorem analyzeAccess_assigned (form : Form) :
    analyzeAccess analyze { context with assigning := true } form =
      Access.assigned <$> analyzeAccess analyze { context with assigning := false } form := by
  have hreceiver (target : Form) : targetReceiver analyze { context with assigning := true } target =
      targetReceiver analyze { context with assigning := false } target :=
    (targetReceiver_assigning analyze context true target).trans
      (targetReceiver_assigning analyze context false target).symm
  unfold analyzeAccess
  rcases form.list? with _ | _ | ⟨marker, _ | ⟨target, _ | ⟨member, rest⟩⟩⟩
  · rfl
  · rfl
  · rfl
  · rfl
  · refine Logged.bind_eq_map (hreceiver target) fun receiver => ?_
    cases member.symbol? with
    | none => exact callAccess_assigned analyze context receiver member rest _
    | some symbol =>
      cases rest with
      | nil => exact nullaryAccess_assigned context receiver symbol _
      | cons first rest => exact callAccess_assigned analyze context receiver member _ _

end

/-- **Reading and assigning reach the same member.** Whatever forms inside an access are analyzed
with, the access is analyzed with the same error where it is read and where it is assigned to, or to
the same node but for a member that is left to run time, which is a dynamic one where it is read and
a field where it is assigned to. The expressions that the node is applied to are the same, and so are
the questions to the host and the warnings on the way. -/
theorem same_member_assigned (analyze : Analyzer) (context : Context) (form : Form) :
    let read := analyzeAccess analyze { context with assigning := false } form
    let assigned := analyzeAccess analyze { context with assigning := true } form
    SameOutcome (fun node node' => node' = node.assigned ∧ node'.operands = node.operands ∧
        node'.call? = node.call?) read.result assigned.result ∧
      assigned.log = read.log := by
  intro read assigned
  have heq : assigned = Access.assigned <$> read := analyzeAccess_assigned analyze context form
  rw [heq, Logged.result_map, Logged.log_map]
  refine ⟨?_, rfl⟩
  cases read.result with
  | error e => exact .error e
  | ok node => exact .ok ⟨rfl, operands_assigned node, call?_assigned node⟩

end Interop
