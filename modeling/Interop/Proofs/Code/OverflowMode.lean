import Interop.Proofs.Analysis.Relabel
import Interop.Proofs.Code.Relabel

/-! What the overflow mode of a context decides. Two contexts that differ in nothing else lead to
the same errors, and to expressions and code that differ in nothing but the mode: in code, in the
routines that convert arguments and stored values to primitive types that can overflow. -/

namespace Interop

def Context.withOverflow (context : Context) (mode : OverflowMode) : Context :=
  { context with overflow := mode }

/-- The expression with one mode in place of all that it captured. -/
def Expr.withoutModes (expr : Expr) : Expr := expr.relabel { overflow := fun _ => .checked }

/-- Two conversions of an argument or a stored value to one kind, the first by the checked and the
second by the unchecked routine. -/
inductive Linked.DiffersInMode : Linked → Linked → Prop
  | intro (kind : PrimitiveKind) :
      DiffersInMode (.convert false (.routine { kind, overflow := .checked }))
        (.convert false (.routine { kind, overflow := .unchecked }))

/-! ## Two modes -/

section

variable {context : Context} {form : Form} {x y : Expr} {mode : OverflowMode}

/-- The outcome in one mode is that in any other, with the modes replaced. -/
theorem result_withOverflow (context : Context) (form : Form) (mode : OverflowMode) :
    (analyze (context.withOverflow mode) form).result =
      (analyze context form).result.map (Expr.relabel { overflow := fun _ => mode }) := by
  have h := analyze_relabel { overflow := fun _ => mode } context form
  rw [Form.mapSpans_id] at h
  have hcontext : context.relabel { overflow := fun _ => mode } = context.withOverflow mode := rfl
  rw [hcontext] at h
  rw [h]
  show ((analyze context form).result.map _).mapError (InteropError.mapSpan id) = _
  cases (analyze context form).result with
  | error e => exact congrArg Except.error e.mapSpan_id
  | ok expr => rfl

/-- What is analyzed in a mode has captured this mode. -/
theorem relabel_eq_self (h : (analyze (context.withOverflow mode) form).result = .ok x) :
    x.relabel { overflow := fun _ => mode } = x := by
  have hsame := result_withOverflow (context.withOverflow mode) form mode
  have hcontext : (context.withOverflow mode).withOverflow mode = context.withOverflow mode := rfl
  rw [hcontext, h] at hsame
  exact (Except.ok.inj hsame).symm

theorem mode_of_mem_modes (h : x.relabel { overflow := fun _ => mode } = x) {found : OverflowMode}
    (hfound : found ∈ x.modes) : found = mode := by
  rw [← h, Expr.modes_relabel] at hfound
  obtain ⟨_, _, rfl⟩ := List.mem_map.mp hfound
  rfl

/-- Modes that nothing chooses are checked. -/
theorem link_withMode (expr : Expr) (mode : OverflowMode) :
    (expr.relabel { overflow := fun _ => mode }).link.result = expr.link.result ∧
      (expr.relabel { overflow := fun _ => mode }).linked =
        expr.linked.map (Linked.remode (fun _ => mode) fun _ => .checked) := by
  have h := @Expr.link_relabel { overflow := fun _ => mode } (fun _ => .checked) rfl expr
  unfold Expr.linked
  rw [h]
  refine ⟨?_, rfl⟩
  show (expr.link.result.map id).mapError (InteropError.mapSpan id) = _
  cases expr.link.result with
  | error e => exact congrArg Except.error e.mapSpan_id
  | ok => rfl

end

/-! ## Code in two modes -/

theorem differsInMode_remode (linked : Linked) :
    (linked.remode (fun _ => .checked) fun _ => .checked).instr =
        (linked.remode (fun _ => .unchecked) fun _ => .checked).instr ∨
      Linked.DiffersInMode (linked.remode (fun _ => .checked) fun _ => .checked)
        (linked.remode (fun _ => .unchecked) fun _ => .checked) := by
  cases linked with
  | convert ofReceiver conversion =>
    cases conversion with
    | routine cast =>
      cases ofReceiver with
      | true => exact .inl rfl
      | false =>
        by_cases hkind : cast.kind.canOverflow
        · right
          simp only [Linked.remode, CastRoutine.remode, hkind, if_true]
          exact .intro cast.kind
        · left
          simp only [Linked.remode, CastRoutine.remode, hkind]
          rfl
    | unboxValue type => cases ofReceiver <;> exact .inl rfl
    | castClass type => cases ofReceiver <;> exact .inl rfl
  | _ => exact .inl rfl

/-- In checked mode every routine is checked. -/
theorem overflow_of_remode_checked {linked : Linked} {cast : CastRoutine}
    (h : (linked.remode (fun _ => .checked) fun _ => .checked).instr = .convert cast) :
    cast.overflow = .checked := by
  cases linked with
  | convert ofReceiver conversion =>
    cases conversion with
    | routine routine =>
      cases ofReceiver <;> cases h <;> simp [CastRoutine.remode]
    | unboxValue type => cases ofReceiver <;> cases h
    | castClass type => cases ofReceiver <;> cases h
  | call owner signature =>
    simp only [Linked.remode, Linked.instr] at h
    split at h <;> cases h
  | _ => cases h

/-- **The overflow mode changes conversions only.** In checked and in unchecked mode a form is
analyzed with the same error or to two expressions that are the same but for the modes in them;
every call and every assignment has captured the mode of its context. Their code is emitted with
the same error, or instruction for instruction alike: where two instructions differ, they convert
an argument or a stored value, never a receiver, to one primitive kind, the first by the checked
routine and the second by the unchecked one. No routine of the first code is unchecked. -/
theorem overflow_changes_conversions_only (context : Context) (form : Form) :
    SameOutcome
      (fun x y => x.withoutModes = y.withoutModes ∧
        (∀ mode ∈ x.modes, mode = .checked) ∧ (∀ mode ∈ y.modes, mode = .unchecked) ∧
        SameOutcome
          (fun code code' => code = x.linked.map Linked.instr ∧ code' = y.linked.map Linked.instr ∧
            List.Forall₂ (fun l l' => l.instr = l'.instr ∨ l.DiffersInMode l')
              x.linked y.linked ∧
            ∀ cast, Instr.convert cast ∈ code → cast.overflow = .checked)
          x.code y.code)
      (analyze (context.withOverflow .checked) form).result
      (analyze (context.withOverflow .unchecked) form).result := by
  have hboth := result_withOverflow (context.withOverflow .unchecked) form .checked
  have hcontext : (context.withOverflow .unchecked).withOverflow .checked =
      context.withOverflow .checked := rfl
  rw [hcontext] at hboth
  rw [hboth]
  cases hy : (analyze (context.withOverflow .unchecked) form).result with
  | error e => exact .error e
  | ok y =>
    have hyself := relabel_eq_self hy
    rw [hy] at hboth
    have hxself := relabel_eq_self hboth
    refine .ok ⟨hxself, fun _ => mode_of_mem_modes hxself, fun _ => mode_of_mem_modes hyself, ?_⟩
    obtain ⟨hresult, hlinked⟩ := link_withMode y .checked
    obtain ⟨-, hunchecked⟩ := link_withMode y .unchecked
    rw [hyself] at hunchecked
    rw [Expr.code_eq, Expr.code_eq, hresult]
    cases y.link.result with
    | error e => exact .error e
    | ok =>
      refine .ok ⟨rfl, rfl, ?_, ?_⟩
      · rw [hlinked]
        nth_rewrite 2 [hunchecked]
        rw [List.forall₂_map_left_iff, List.forall₂_map_right_iff, List.forall₂_same]
        exact fun linked _ => differsInMode_remode linked
      · intro cast hcast
        rw [hlinked, List.map_map] at hcast
        obtain ⟨linked, -, hinstr⟩ := List.mem_map.mp hcast
        exact overflow_of_remode_checked hinstr

end Interop
