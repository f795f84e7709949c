import Interop.Proofs.Code.Linked
import Interop.Proofs.Expr.Relabel

/-! Labels in code. Instructions have no spans, so those of an expression are seen in its errors
only; overflow modes choose the routines that convert arguments and stored values to primitive
types. Receivers are always converted in checked mode. -/

namespace Interop

/-- Replaces the mode of a routine: by `g` if the kind has two routines, else by `fixed`. -/
def CastRoutine.remode (g fixed : OverflowMode → OverflowMode) (cast : CastRoutine) :
    CastRoutine :=
  { cast with overflow := if cast.kind.canOverflow then g cast.overflow else fixed cast.overflow }

theorem CastRoutine.remode_select {g fixed : OverflowMode → OverflowMode}
    (hfixed : fixed .checked = .checked) (kind : PrimitiveKind) (overflow : OverflowMode) :
    (select kind overflow).remode g fixed = select kind (g overflow) := by
  unfold remode select
  by_cases h : kind.canOverflow
  · simp [h]
  · simp [h, hfixed]

/-- Replaces overflow modes: by `g` where they are labels, and by `fixed` where there is no choice
of a mode, as there is none for receivers. -/
def Linked.remode (g fixed : OverflowMode → OverflowMode) : Linked → Linked
  | .convert true (.routine cast) => .convert true (.routine (cast.remode fixed fixed))
  | .convert false (.routine cast) => .convert false (.routine (cast.remode g fixed))
  | .call owner signature => .call owner { signature with overflow := g signature.overflow }
  | linked => linked

/-- The linking with other labels. -/
abbrev Relabel.relink (r : Relabel) (fixed : OverflowMode → OverflowMode) (link : Linking) :
    Linking :=
  link.mapAll (Linked.remode r.overflow fixed) (InteropError.mapSpan r.span) id

section

open Linking

variable {r : Relabel} {fixed : OverflowMode → OverflowMode}

theorem boxResult_relink (type : HostType) :
    boxResult type = r.relink fixed (boxResult type) := by
  cases type <;> rfl

/-- Conversions differ in nothing but the mode of the routine. -/
theorem convertTo_relink (hfixed : fixed .checked = .checked) (ofReceiver : Bool)
    (type : HostType) {before after : OverflowMode}
    (h : (if ofReceiver then fixed else r.overflow) before = after) :
    convertTo ofReceiver type after = r.relink fixed (convertTo ofReceiver type before) := by
  subst h
  cases type with
  | primitive kind =>
    cases ofReceiver with
    | true =>
      show emit (.convert true (.routine (.select kind (fixed before)))) = _
      rw [← CastRoutine.remode_select hfixed]
      rfl
    | false =>
      show emit (.convert false (.routine (.select kind (r.overflow before)))) = _
      rw [← CastRoutine.remode_select hfixed]
      rfl
  | void => rfl
  | value name => cases ofReceiver <;> rfl
  | reference name =>
    show unbox ofReceiver (if _ then _ else _) =
      r.relink fixed (unbox ofReceiver (if _ then _ else _))
    split
    · rfl
    · cases ofReceiver <;> rfl
  | array element => cases ofReceiver <;> rfl

theorem convertTarget_relink (hfixed : fixed .checked = .checked)
    (known : Option HostType) (declaring : HostType) :
    convertTarget known declaring = r.relink fixed (convertTarget known declaring) := by
  unfold convertTarget
  split
  · exact convertTo_relink hfixed true declaring hfixed
  · rfl

theorem Call.signature_relabel (call : Call Expr) :
    (call.relabel r).signature =
      { call.signature with overflow := r.overflow call.overflow } := by
  cases call with
  | mk name typeArgs args method overflow =>
    simp [Call.relabel, Call.signature, relabelArgs_eq_map]

theorem emit_call_relink (owner : Option HostType) (call : Call Expr) :
    emit (.call owner (call.relabel r).signature) =
      r.relink fixed (emit (.call owner call.signature)) := by
  rw [Call.signature_relabel]
  rfl

theorem forM_relink {α : Type} (choice : Option α) {f : α → Linking}
    (h : ∀ a, f a = r.relink fixed (f a)) :
    choice.forM f = r.relink fixed (choice.forM f) := by
  cases choice with
  | none => rfl
  | some a => exact h a

theorem invalidTarget_relink (node : Access Expr) :
    Logged.fail ((relabelAccess r node).invalidTarget (relabelAccess r node).site.span) =
      r.relink fixed (Logged.fail (node.invalidTarget node.site.span)) := by
  have hspan : (relabelAccess r node).site.span = r.span node.site.span := by
    rw [relabelAccess_site]
    rfl
  rw [hspan, relabelAccess_invalidTarget]
  rfl

/-- What is linked one after the other. -/
theorem relink_bind {first first' rest rest' : Linking} (hfirst : first' = r.relink fixed first)
    (hrest : rest' = r.relink fixed rest) :
    (do first'; rest') = r.relink fixed (do first; rest) :=
  Logged.bind_mapAll hfirst fun _ => hrest

/-- A read from where a member has been reached. -/
theorem read_relink {linked : Linked} (type : HostType)
    (h : linked.remode r.overflow fixed = linked) :
    (do emit linked; boxResult type) = r.relink fixed (do emit linked; boxResult type) := by
  refine relink_bind ?_ (boxResult_relink type)
  show emit linked = emit (linked.remode r.overflow fixed)
  rw [h]

/-- A store through what has been reached. -/
theorem write_relink (hfixed : fixed .checked = .checked) {value value' : Linking}
    {linked : Linked} (type : HostType) (overflow : OverflowMode)
    (hvalue : value' = r.relink fixed value)
    (h : linked.remode r.overflow fixed = linked) :
    (do value'; convertTo false type (r.overflow overflow); emit linked; boxResult type) =
      r.relink fixed (do value; convertTo false type overflow; emit linked; boxResult type) :=
  relink_bind hvalue (relink_bind (convertTo_relink hfixed false type rfl) (read_relink type h))

/-! ## The linking of an expression -/

mutual

theorem Expr.link_relabel (hfixed : fixed .checked = .checked) :
    (expr : Expr) → (expr.relabel r).link = r.relink fixed expr.link
  | .constant _ | .localVar _ | .global _ | .typeRef _ => rfl
  | .access node => linkAccess_relabel hfixed node
  | .assign target value overflow _ =>
    linkStore_relabel hfixed target (value.link_relabel hfixed) overflow

theorem linkAccess_relabel (hfixed : fixed .checked = .checked) : (node : Access Expr) →
    linkAccess (relabelAccess r node) = r.relink fixed (linkAccess node)
  | .staticField _ field _ => read_relink field.type rfl
  | .staticProperty _ property _ => read_relink property.type rfl
  | .staticMethod type call _ => by
    have hbox := @forM_relink r fixed _ call.method _
      fun method => boxResult_relink method.returns
    have hargs := linkCall_relabel hfixed call
    simp only [relabelAccess, linkAccess, Call.relabel_method]
    exact relink_bind hargs (relink_bind (emit_call_relink (some type) call) hbox)
  | .instanceField target _ none _ | .dynamicMember target _ _ =>
    relink_bind (target.link_relabel hfixed) rfl
  | .instanceField target _ (some field) _ => by
    simp only [relabelAccess, linkAccess, Expr.relabel_type?]
    refine relink_bind (target.link_relabel hfixed) ?_
    exact relink_bind (convertTarget_relink hfixed _ _) (read_relink field.type rfl)
  | .instanceProperty target property _ => by
    simp only [relabelAccess, linkAccess, Expr.relabel_type?]
    refine relink_bind (target.link_relabel hfixed) ?_
    exact relink_bind (convertTarget_relink hfixed _ _) (read_relink property.type rfl)
  | .instanceMethod target call _ => by
    have hreceiver := forM_relink (r := r) call.method
      fun method => convertTarget_relink hfixed target.type? method.declaring
    have hbox := @forM_relink r fixed _ call.method _
      fun method => boxResult_relink method.returns
    have hargs := linkCall_relabel hfixed call
    simp only [relabelAccess, linkAccess, Expr.relabel_type?, Call.relabel_method]
    refine relink_bind (target.link_relabel hfixed) (relink_bind hreceiver ?_)
    exact relink_bind hargs (relink_bind (emit_call_relink none call) hbox)

theorem linkStore_relabel (hfixed : fixed .checked = .checked) : (node : Access Expr) →
    {value value' : Linking} → value' = r.relink fixed value → (overflow : OverflowMode) →
    linkStore (relabelAccess r node) value' (r.overflow overflow) =
      r.relink fixed (linkStore node value overflow)
  | .staticField _ field _, _, _, hvalue, overflow =>
    write_relink hfixed field.type overflow hvalue rfl
  | .staticProperty type property site, _, _, hvalue, overflow => by
    simp only [relabelAccess, linkStore, Access.isAssignable]
    by_cases hwritable : property.writable
    · simp only [hwritable, Bool.not_true, Bool.false_eq_true, if_false]
      exact write_relink hfixed property.type overflow hvalue rfl
    · simp only [hwritable, Bool.not_false, if_true]
      exact invalidTarget_relink (.staticProperty type property site)
  | .instanceField target _ none _, _, _, hvalue, _ =>
    relink_bind (target.link_relabel hfixed) (relink_bind hvalue rfl)
  | .instanceField target name (some field) site, _, _, hvalue, overflow => by
    simp only [relabelAccess, linkStore, Access.isAssignable, Expr.relabel_type?]
    refine relink_bind (target.link_relabel hfixed) ?_
    exact relink_bind (convertTarget_relink hfixed _ _)
      (write_relink hfixed field.type overflow hvalue rfl)
  | .instanceProperty target property site, _, _, hvalue, overflow => by
    simp only [relabelAccess, linkStore, Access.isAssignable, Expr.relabel_type?]
    by_cases hwritable : property.writable
    · simp only [hwritable, Bool.not_true, Bool.false_eq_true, if_false]
      refine relink_bind (target.link_relabel hfixed) ?_
      exact relink_bind (convertTarget_relink hfixed _ _)
        (write_relink hfixed property.type overflow hvalue rfl)
    · simp only [hwritable, Bool.not_false, if_true]
      exact invalidTarget_relink (.instanceProperty target property site)
  | .staticMethod type call site, _, _, _, _ =>
    invalidTarget_relink (.staticMethod type call site)
  | .instanceMethod target call site, _, _, _, _ =>
    invalidTarget_relink (.instanceMethod target call site)
  | .dynamicMember target name site, _, _, _, _ =>
    invalidTarget_relink (.dynamicMember target name site)

theorem linkCall_relabel (hfixed : fixed .checked = .checked) :
    (call : Call Expr) → linkCall (call.relabel r) = r.relink fixed (linkCall call)
  | { args, .. } => linkArgs_relabel hfixed _ _ args

theorem linkArgs_relabel (hfixed : fixed .checked = .checked) (params : List HostType)
    (overflow : OverflowMode) : (args : List (Argument Expr)) →
    linkArgs params (r.overflow overflow) (relabelArgs r args) =
      r.relink fixed (linkArgs params overflow args)
  | [] => rfl
  | arg :: args =>
    relink_bind (linkArgument_relabel hfixed params.head? overflow arg)
      (linkArgs_relabel hfixed params.tail overflow args)

theorem linkArgument_relabel (hfixed : fixed .checked = .checked) (param : Option HostType)
    (overflow : OverflowMode) : (arg : Argument Expr) →
    linkArgument param (r.overflow overflow) (arg.relabel r) =
      r.relink fixed (linkArgument param overflow arg)
  | { byRef := some _, .. } => rfl
  | { value, byRef := none } => by
    refine relink_bind (value.link_relabel hfixed) ?_
    cases param with
    | some type => exact convertTo_relink hfixed false type rfl
    | none => rfl

end

end

/-- Spans are seen in the errors of emission only. -/
theorem Expr.code_mapSpans (f : Span → Span) (expr : Expr) :
    (expr.relabel { span := f }).code = expr.code.mapError (InteropError.mapSpan f) := by
  have hlink := @Expr.link_relabel { span := f } id rfl expr
  have hinstr : ∀ linked : Linked, (linked.remode id id).instr = linked.instr := by
    intro linked
    unfold Linked.remode
    split <;> simp [CastRoutine.remode, Linked.instr]
  rw [Expr.code_eq, Expr.code_eq, Expr.linked, hlink]
  simp only [Logged.mapAll, List.map_map, Function.comp_def, hinstr, Expr.linked]
  cases expr.link.result <;> rfl

end Interop
