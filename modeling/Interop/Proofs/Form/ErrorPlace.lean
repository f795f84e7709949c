import Interop.Proofs.Form.Resumption
import Interop.Proofs.Text.Lines

/-! Errors are shown where they are. Every span that reading gives starts at a place of the text: that
of a token, of an error in the place of one, or the end. So an error of reading is shown on its line,
with one exception: an error at the end of a text is not shown when the last line is empty. -/

namespace Interop

namespace Span

variable {text : List Char}

theorem standsIn_span {before rest : List Char} (h : text = before ++ rest) (stop : Nat) :
    ((LineIndex.ofText text).span (byteLength before) stop).StandsIn text :=
  ⟨before, rest, h, rfl, rfl⟩

theorem standsIn_endSpan (source : String) : (endSpan source).StandsIn source.toList := by
  rw [endSpan, ← byteLength_toList]
  exact standsIn_span (List.append_nil _).symm _

/-- Where a joined span starts is where its first part does. -/
theorem StandsIn.through {opening : Span} (h : opening.StandsIn text) (closing : Span) :
    (opening.through closing).StandsIn text := h

end Span

/-! ## Tokens -/

namespace TokenResult

def span : TokenResult → Span
  | .ok token => token.span
  | .error e => e.span

theorem standsIn_of_mem_tokenize {source : String} {item : TokenResult}
    (h : item ∈ tokenize source) : item.span.StandsIn source.toList := by
  obtain ⟨place, after, hplace, hnext⟩ := (Cursor.standsIn_ofText _).exists_of_mem_tokens h
  obtain ⟨c, rest, -, rfl, -⟩ := Cursor.next?_cases hnext
  obtain ⟨before, htext, hoffset⟩ := hplace.skipBlanks
  have hspan : ∀ lexeme, span (Cursor.result (LineIndex.ofText source.toList)
      place.skipBlanks.offset lexeme) = (LineIndex.ofText source.toList).span
      place.skipBlanks.offset (place.skipBlanks.offset + lexeme.extent) := by
    intro lexeme
    unfold Cursor.result
    cases lexeme.kind <;> rfl
  rw [hspan, hoffset]
  exact Span.standsIn_span htext _

end TokenResult

/-! ## Reading -/

/-- The span of a form that was read, or of the error in its place. -/
def outcomeSpan : Except ReadError Form → Span
  | .ok form => form.span
  | .error e => e.span

/-- Whether the span of what was read starts in a text, and those of the tokens after it do. -/
def StepIn (text : List Char) (step : ReadStep) : Prop :=
  (outcomeSpan step.1).StandsIn text ∧ ∀ item ∈ step.2, (TokenResult.span item).StandsIn text

variable {text : List Char} {atEnd : Span} {items : List TokenResult}

theorem readWithin_stepIn {group : OpenGroup} {outer : List OpenGroup}
    (hend : atEnd.StandsIn text) (hgroup : group.span.StandsIn text)
    (houter : ∀ group ∈ outer, group.span.StandsIn text)
    (hitems : ∀ item ∈ items, (TokenResult.span item).StandsIn text) :
    StepIn text (readWithin atEnd group outer items) := by
  fun_induction readWithin atEnd group outer items with
  | case1 => exact ⟨hend, hitems⟩
  | case2 => exact List.forall_mem_cons.mp hitems
  | case3 _ _ _ _ _ _ ih =>
    obtain ⟨hitem, hitems⟩ := List.forall_mem_cons.mp hitems
    exact ih hitem (List.forall_mem_cons.mpr ⟨hgroup, houter⟩) hitems
  | case4 group token =>
    obtain ⟨-, hitems⟩ := List.forall_mem_cons.mp hitems
    exact ⟨hgroup.through token.span, hitems⟩
  | case5 _ _ _ _ _ _ ih =>
    obtain ⟨hnext, houter⟩ := List.forall_mem_cons.mp houter
    obtain ⟨-, hitems⟩ := List.forall_mem_cons.mp hitems
    exact ih hnext houter hitems
  | case6 => exact List.forall_mem_cons.mp hitems
  | case7 _ _ _ _ _ _ _ _ ih =>
    obtain ⟨-, hitems⟩ := List.forall_mem_cons.mp hitems
    exact ih hgroup houter hitems
  | case8 => exact List.forall_mem_cons.mp hitems

theorem readNext?_stepIn {step : ReadStep} (hend : atEnd.StandsIn text)
    (hitems : ∀ item ∈ items, (TokenResult.span item).StandsIn text)
    (h : readNext? atEnd items = some step) : StepIn text step := by
  unfold readNext? at h
  split at h
  · cases h
  · cases h
    exact List.forall_mem_cons.mp hitems
  · obtain ⟨hitem, hlater⟩ := List.forall_mem_cons.mp hitems
    split at h
    · cases h
      exact readWithin_stepIn hend hitem (by simp) hlater
    · cases h
      exact ⟨hitem, hlater⟩
    · split at h <;> cases h <;> exact ⟨hitem, hlater⟩

theorem readForms_standsIn {e : ReadError} (hend : atEnd.StandsIn text)
    (hitems : ∀ item ∈ items, (TokenResult.span item).StandsIn text)
    (h : readForms atEnd items = .error e) : e.span.StandsIn text := by
  fun_induction readForms atEnd items with
  | case1 => cases h
  | case2 items e rest hnext =>
    cases h
    exact (readNext?_stepIn hend hitems hnext).1
  | case3 items form rest hnext ih =>
    refine ih (readNext?_stepIn hend hitems hnext).2 ?_
    cases hrest : readForms atEnd rest with
    | error e' =>
      rw [hrest] at h
      cases h
      rfl
    | ok forms =>
      rw [hrest] at h
      cases h

theorem readOne_standsIn {source : String} {e : ReadError} (h : readOne source = .error e) :
    e.span.StandsIn source.toList := by
  have hend := Span.standsIn_endSpan source
  have hitems : ∀ item ∈ tokenize source, (TokenResult.span item).StandsIn source.toList :=
    fun item => TokenResult.standsIn_of_mem_tokenize
  unfold readOne at h
  rcases hfirst : readNext? (endSpan source) (tokenize source) with _ | ⟨e' | form, rest⟩
  · simp only [hfirst] at h
    cases h
    exact hend
  · simp only [hfirst] at h
    cases h
    exact (readNext?_stepIn hend hitems hfirst).1
  · have hlater := (readNext?_stepIn hend hitems hfirst).2
    rcases hnext : readNext? (endSpan source) rest with _ | ⟨e' | extra, after⟩ <;>
      simp only [hfirst, hnext] at h <;> cases h
    · exact (readNext?_stepIn hend hlater hnext).1
    · exact (readNext?_stepIn hend hlater hnext).1

/-- **Errors are shown where they are.** The error of reading all forms of a text or its only form is
shown on the line it starts on, with carets from its column on, exactly if it is not at the end of a
text that is empty or ends in a newline. Such an error is not shown at all. -/
theorem error_shown_iff {source : String} {e : ReadError}
    (h : readAll source = .error e ∨ readOne source = .error e) :
    (e.span.ShowsStart source (e.context source) ↔
      ¬ (e.span.start = source.utf8ByteSize ∧ StartsLine source.toList)) ∧
    (¬ e.span.ShowsStart source (e.context source) → e.context source = "") := by
  have hplace : e.span.StandsIn source.toList := by
    rcases h with hall | hone
    · exact readForms_standsIn (Span.standsIn_endSpan source)
        (fun item => TokenResult.standsIn_of_mem_tokenize) hall
    · exact readOne_standsIn hone
  rcases Span.context_cases hplace with ⟨hinside, hshown⟩ | ⟨hend, hempty⟩
  · exact ⟨iff_of_true hshown hinside, fun hnot => absurd hshown hnot⟩
  · have hnot : ¬ e.span.ShowsStart source (e.context source) := fun hshown =>
      hshown.ne_empty hempty
    exact ⟨iff_of_false hnot (not_not_intro hend), fun _ => hempty⟩

/-- A bracket in the place of a parenthesis, on the second line. -/
theorem error_shown_bracket :
    ∃ e, readAll "(a\r\n ]" = .error e ∧ e.span.first = { line := 2, column := 2 } ∧
      e.span.ShowsStart "(a\r\n ]" (e.context "(a\r\n ]") := by
  have hread : (match readAll "(a\r\n ]" with
      | .error e => decide (e.span.start = 5 ∧ e.span.first = { line := 2, column := 2 })
      | .ok _ => false) = true := by
    decide +kernel
  split at hread
  · rename_i e he
    obtain ⟨hstart, hfirst⟩ := of_decide_eq_true hread
    refine ⟨e, he, hfirst, (error_shown_iff (.inl he)).1.mpr ?_⟩
    rintro ⟨hend, -⟩
    rw [hstart] at hend
    exact absurd hend (by decide)
  · cases hread

/-- A group that is left open in front of a newline. -/
theorem error_not_shown_after_newline :
    ∃ e, readAll "(\n" = .error e ∧ ¬ e.span.ShowsStart "(\n" (e.context "(\n") := by
  have hread : (match readAll "(\n" with
      | .error e => decide (e.context "(\n" = "")
      | .ok _ => false) = true := by
    decide +kernel
  split at hread
  · rename_i e he
    exact ⟨e, he, fun hshown => hshown.ne_empty (of_decide_eq_true hread)⟩
  · cases hread

end Interop
