import Interop.Proofs.Form.Grammar
import Mathlib.Algebra.Order.BigOperators.Group.List

/-! Reading on after errors. Every call of a reader takes at least one item, whatever it gives, and the
next call goes on where it stopped. So the calls cut the items of a text into pieces, one for each, and
the piece of a call that gives a form consists of the tokens of this form. -/

namespace Interop

/-- One call of a reader: what it gives, which is nothing at the end, and the items that are left. -/
def readOnce (atEnd : Span) (items : List TokenResult) :
    Option (Except ReadError Form) × List TokenResult :=
  match readNext? atEnd items with
  | none => (none, [])
  | some (outcome, rest) => (some outcome, rest)

/-- The items that are left after some calls, whatever these have given. -/
def leftAfter (atEnd : Span) (items : List TokenResult) : Nat → List TokenResult
  | 0 => items
  | calls + 1 => leftAfter atEnd (readOnce atEnd items).2 calls

/-- What the call with a number gives, counted from zero. -/
def outcomeOf (source : String) (call : Nat) : Option (Except ReadError Form) :=
  (readOnce (endSpan source) (leftAfter (endSpan source) (tokenize source) call)).1

/-! ## One call -/

theorem TokenResult.InPlace.isByte {token : Token} (h : InPlace (.ok token))
    (hkind : ∀ leaf, token.kind ≠ .leaf leaf) : token.span.IsByte :=
  (h token rfl).resolve_left fun ⟨leaf, hleaf⟩ => hkind leaf hleaf

/-- Whether a step takes items off the front. A form that it gives has the pieces that were there before
and then those of the items. -/
def StepTakes (before : List Piece) (items : List TokenResult) (step : ReadStep) : Prop :=
  ∃ segment, items = segment ++ step.2 ∧ ∀ form, step.1 = .ok form → ∃ pieces,
    segment.map TokenResult.piece? = pieces.map some ∧ form.pieces = before ++ pieces

variable {atEnd : Span} {group : OpenGroup} {outer : List OpenGroup} {items : List TokenResult}
  {step : ReadStep}

theorem StepTakes.cons {before : List Piece} {item : TokenResult} {piece : Piece}
    (hpiece : item.piece? = some piece) (h : StepTakes (before ++ [piece]) items step) :
    StepTakes before (item :: items) step := by
  obtain ⟨segment, hitems, hform⟩ := h
  refine ⟨item :: segment, by rw [hitems, List.cons_append], fun form hstep => ?_⟩
  obtain ⟨pieces, hsegment, hpieces⟩ := hform form hstep
  exact ⟨piece :: pieces, by rw [List.map_cons, List.map_cons, hpiece, hsegment],
    by rw [hpieces, List.append_assoc, List.singleton_append]⟩

/-- An error ends the step behind the item that it is about. -/
theorem StepTakes.error (before : List Piece) (item : TokenResult) (rest : List TokenResult)
    (e : ReadError) : StepTakes before (item :: rest) (.error e, rest) := ⟨[item], rfl, nofun⟩

/-- A form that ends here takes no more. -/
theorem StepTakes.done {form : Form} {before : List Piece} (h : form.pieces = before)
    (rest : List TokenResult) : StepTakes before rest (.ok form, rest) := by
  refine ⟨[], rfl, fun read hread => ⟨[], rfl, ?_⟩⟩
  cases hread
  rw [h, List.append_nil]

/-- Inside open groups the pieces before are those that the groups hold. -/
theorem readWithin_takes (hgroups : ∀ inner ∈ group :: outer, inner.span.IsByte)
    (hitems : ∀ item ∈ items, TokenResult.InPlace item) :
    StepTakes (openPieces (group :: outer)) items (readWithin atEnd group outer items) := by
  fun_induction readWithin atEnd group outer items with
  | case1 => exact ⟨[], rfl, fun _ hform => by cases hform⟩
  | case2 => exact .error _ _ _ _
  | case3 group outer token rest delimiter hkind ih =>
    obtain ⟨hitem, hitems⟩ := List.forall_mem_cons.mp hitems
    have hbyte := hitem.isByte (by simp [hkind])
    have hpiece : token.piece? = some (.opening delimiter token.span) := by
      simp [Token.piece?, hkind]
    exact .cons hpiece (ih (List.forall_mem_cons.mpr ⟨hbyte, hgroups⟩) hitems)
  | case4 group token rest hkind =>
    obtain ⟨hitem, -⟩ := List.forall_mem_cons.mp hitems
    have hbyte := hitem.isByte (by simp [hkind])
    have hpiece : token.piece? = some (.closing group.delimiter token.span) := by
      simp [Token.piece?, hkind]
    have hclosed : (group.close token.span).pieces =
        openPieces [group] ++ [.closing group.delimiter token.span] :=
      @pieces_close group [] token.span (List.forall_mem_cons.mp hgroups).1 hbyte
    exact .cons hpiece (.done hclosed rest)
  | case5 group token rest next others hkind ih =>
    obtain ⟨hitem, hitems⟩ := List.forall_mem_cons.mp hitems
    obtain ⟨hgroup, houter⟩ := List.forall_mem_cons.mp hgroups
    have hbyte := hitem.isByte (by simp [hkind])
    have hpiece : token.piece? = some (.closing group.delimiter token.span) := by
      simp [Token.piece?, hkind]
    have hmore := ih (List.forall_mem_cons.mpr (List.forall_mem_cons.mp houter)) hitems
    rw [openPieces_add, pieces_close hgroup hbyte] at hmore
    exact .cons hpiece hmore
  | case6 => exact .error _ _ _ _
  | case7 group outer token rest kind hkind datum hdatum ih =>
    obtain ⟨-, hitems⟩ := List.forall_mem_cons.mp hitems
    have hpiece : token.piece? = some (.leaf datum token.span) := by
      simp [Token.piece?, hkind, hdatum, Except.toOption]
    have hmore := ih (List.forall_mem_cons.mpr (List.forall_mem_cons.mp hgroups)) hitems
    rw [openPieces_add] at hmore
    exact .cons hpiece hmore
  | case8 => exact .error _ _ _ _

/-- **One call.** A call that gives anything takes at least one item, and those of a form are its
pieces. -/
theorem readNext?_takes (hitems : ∀ item ∈ items, TokenResult.InPlace item)
    (h : readNext? atEnd items = some step) :
    ∃ segment, segment ≠ [] ∧ items = segment ++ step.2 ∧ ∀ form, step.1 = .ok form →
      segment.map TokenResult.piece? = form.pieces.map some := by
  suffices htakes : StepTakes [] items step by
    obtain ⟨segment, hsegment, hform⟩ := htakes
    refine ⟨segment, ?_, hsegment, fun form hstep => ?_⟩
    · rintro rfl
      have hlt := length_readNext?_lt h
      rw [hsegment] at hlt
      exact Nat.lt_irrefl _ hlt
    · obtain ⟨pieces, hmap, hpieces⟩ := hform form hstep
      rw [hmap, hpieces, List.nil_append]
  unfold readNext? at h
  split at h
  · cases h
  · cases h
    exact .error _ _ _ _
  · rename_i token rest
    obtain ⟨hitem, hitems⟩ := List.forall_mem_cons.mp hitems
    split at h
    · rename_i delimiter hkind
      cases h
      have hbyte := hitem.isByte (by simp [hkind])
      have hpiece : token.piece? = some (.opening delimiter token.span) := by
        simp [Token.piece?, hkind]
      exact .cons hpiece (readWithin_takes (by simpa using hbyte) hitems)
    · cases h
      exact .error _ _ _ _
    · rename_i kind hkind
      split at h
      · rename_i datum hdatum
        cases h
        have hpiece : token.piece? = some (.leaf datum token.span) := by
          simp [Token.piece?, hkind, hdatum, Except.toOption]
        exact .cons hpiece (.done rfl rest)
      · cases h
        exact .error _ _ _ _

/-- Only at the end there is nothing to give. -/
theorem eq_nil_of_readNext? (h : readNext? atEnd items = none) : items = [] := by
  unfold readNext? at h
  split at h
  · rfl
  · cases h
  · split at h
    · cases h
    · cases h
    · split at h <;> cases h

/-! ## Calls after each other -/

/-- What one call takes, and what it gives. -/
structure Segment where
  items : List TokenResult
  outcome : Except ReadError Form

/-- Whether calls, one after the other, take these segments of some items and give their outcomes. None
of the segments is empty, and that of a form is the form from left to right. -/
structure Cuts (atEnd : Span) (items : List TokenResult) (segments : List Segment) : Prop where
  all : segments.flatMap (·.items) = items
  nonempty : ∀ segment ∈ segments, segment.items ≠ []
  flattened : ∀ segment ∈ segments, ∀ form, segment.outcome = .ok form →
    segment.items.map TokenResult.piece? = form.pieces.map some
  left : ∀ call, leftAfter atEnd items call = (segments.drop call).flatMap (·.items)
  given : ∀ call, (readOnce atEnd (leftAfter atEnd items call)).1 = segments[call]?.map (·.outcome)

/-- At the end of the items every later call is at the end as well. -/
theorem leftAfter_nil (atEnd : Span) (calls : Nat) : leftAfter atEnd [] calls = [] := by
  induction calls with
  | zero => rfl
  | succ calls ih => exact ih

theorem cuts_nil (atEnd : Span) : Cuts atEnd [] [] where
  all := rfl
  nonempty := nofun
  flattened := nofun
  left call := by
    rw [leftAfter_nil, List.drop_nil, List.flatMap_nil]
  given call := by
    rw [leftAfter_nil]
    rfl

/-- The first call takes the first segment, and the others are taken from what it leaves. -/
theorem Cuts.cons {taken rest : List TokenResult} {outcome : Except ReadError Form}
    {segments : List Segment} (hnext : readNext? atEnd (taken ++ rest) = some (outcome, rest))
    (hne : taken ≠ []) (hform : ∀ form, outcome = .ok form →
      taken.map TokenResult.piece? = form.pieces.map some)
    (h : Cuts atEnd rest segments) : Cuts atEnd (taken ++ rest) (⟨taken, outcome⟩ :: segments) := by
  have hcall : readOnce atEnd (taken ++ rest) = (some outcome, rest) := by
    rw [readOnce, hnext]
  constructor
  case all => rw [List.flatMap_cons, h.all]
  case nonempty => exact List.forall_mem_cons.mpr ⟨hne, h.nonempty⟩
  case flattened => exact List.forall_mem_cons.mpr ⟨hform, h.flattened⟩
  case left =>
    rintro (_ | call)
    · rw [leftAfter, List.drop_zero, List.flatMap_cons, h.all]
    · rw [leftAfter, hcall, List.drop_succ_cons, h.left]
  case given =>
    rintro (_ | call)
    · rw [leftAfter, hcall, List.getElem?_cons_zero, Option.map_some]
    · rw [leftAfter, hcall, h.given, List.getElem?_cons_succ]

/-- There are no more segments than items. -/
theorem Cuts.length_le {segments : List Segment} (h : Cuts atEnd items segments) :
    segments.length ≤ items.length := by
  have hpos : ∀ length ∈ segments.map (·.items.length), 1 ≤ length := by
    rintro _ hlength
    obtain ⟨segment, hsegment, rfl⟩ := List.mem_map.mp hlength
    exact List.length_pos_iff.mpr (h.nonempty segment hsegment)
  rw [← h.all, List.length_flatMap, ← List.length_map (·.items.length)]
  exact List.length_le_sum_of_one_le _ hpos

/-- **A run of calls.** The calls cut the items into segments, whatever items they are. -/
theorem exists_cuts (atEnd : Span) (items : List TokenResult)
    (hitems : ∀ item ∈ items, TokenResult.InPlace item) : ∃ segments, Cuts atEnd items segments := by
  cases hnext : readNext? atEnd items with
  | none =>
    obtain rfl := eq_nil_of_readNext? hnext
    exact ⟨[], cuts_nil atEnd⟩
  | some step =>
    obtain ⟨taken, hne, rfl, hform⟩ := readNext?_takes hitems hnext
    have hshorter := length_readNext?_lt hnext
    obtain ⟨segments, hsegments⟩ := exists_cuts atEnd step.2 fun item hitem =>
      hitems item (List.mem_append_right _ hitem)
    exact ⟨⟨taken, step.1⟩ :: segments, hsegments.cons hnext hne hform⟩
termination_by items.length

/-- **Reading on makes progress.** Calls on one reader, each going on where the one before has stopped,
with a form or with an error, cut the items of a text into segments. None of them is empty, so the end
is reached after at most as many calls as there are items, and every later call is at the end. The
segment of a form consists of its tokens. A literal whose negation leaves the range of integers is no
exception, since that wraps around. -/
theorem reading_progress (source : String) :
    ∃ segments, Cuts (endSpan source) (tokenize source) segments ∧
      segments.length ≤ (tokenize source).length ∧
      ∀ call, outcomeOf source call = none ↔ segments.length ≤ call := by
  obtain ⟨segments, hcuts⟩ := exists_cuts (endSpan source) (tokenize source)
    fun item => TokenResult.inPlace_of_mem_tokenize
  refine ⟨segments, hcuts, hcuts.length_le, fun call => ?_⟩
  rw [outcomeOf, hcuts.given, Option.map_eq_none_iff, List.getElem?_eq_none_iff]

-- A delimiter of the wrong kind, a number that is none, and a group that is left open.
example : [0, 1, 2, 3, 4].map (fun calls =>
    (leftAfter (endSpan "(a ] 1x [b") (tokenize "(a ] 1x [b") calls).length) = [6, 3, 2, 0, 0] := by
  decide +kernel

end Interop
