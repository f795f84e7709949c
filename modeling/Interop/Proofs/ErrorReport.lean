import Interop.Proofs.Analysis.ErrorSpan
import Interop.Proofs.Form.SpanText
import Interop.Session

/-! What a session reports of an analysis that failed. The error is at a form of the source, and a form
takes a piece of it that begins on some line; so the report always shows that line, with carets under
the form. -/

namespace Interop

/-! ## Showing a form -/

/-- Whether a text shows a span by some carets: the line that it starts on, behind its number, and below
the line the carets from the column on. -/
def Span.ShowsCarets (span : Span) (source : String) (carets : Nat) (shown : String) : Prop :=
  ∃ line, IsLine source.toList span.first.line line ∧
    shown = "  " ++ toString span.first.line ++ " | " ++ String.ofList line ++ "\n  "
      ++ String.ofList (List.replicate (toString span.first.line).length ' ') ++ " | "
      ++ String.ofList (List.replicate (span.first.column - 1) ' ')
      ++ String.ofList (List.replicate carets '^')

theorem Span.Covers.standsIn {text piece : List Char} {span : Span} (h : span.Covers text piece) :
    span.StandsIn text := by
  obtain ⟨⟨before, after, htext, hstart, -⟩, hspan⟩ := h
  refine ⟨before, piece ++ after, by rw [htext, List.append_assoc], hstart, ?_⟩
  rw [← hstart]
  exact congrArg Span.first hspan

/-- A piece of a text is shown by carets, on one line by one for each byte. -/
theorem Span.Covers.showsCarets {source : String} {span : Span} {piece : List Char}
    (h : span.Covers source.toList piece) (hne : piece ≠ [])
    (hlast : piece.getLast? ≠ some '\r') :
    ∃ carets, 0 < carets ∧ span.ShowsCarets source carets (span.context source) ∧
      (span.first.line = span.last.line → carets = byteLength piece) := by
  have hinside : span.start < source.utf8ByteSize := by
    rw [← byteLength_toList]
    exact Nat.lt_of_lt_of_le (h.1.start_lt hne) h.1.stop_le
  rcases h.standsIn.listed_cases with ⟨-, line, hline, hlisted⟩ | ⟨⟨hend, -⟩, -⟩
  · refine ⟨span.caretCount line, span.caretCount_pos line, ⟨line, hline, ?_⟩, fun hone => ?_⟩
    · simp only [context, hlisted]
    · exact h.caretCount hne hone hlast hline
  · omega

/-! ## Reports -/

theorem Session.exists_of_analyzeText_error {session : Session} {locals : LexicalEnv}
    {source : String} {form : Form} {e : SessionError} (hread : readOne source = .ok form)
    (h : session.analyzeText locals source = .error e) :
    ∃ error, e = .interop error ∧ error.IsAt form.HasSpan := by
  have hanalyze : session.analyzeText locals source = session.analyzeForm locals form := by
    rw [analyzeText, hread]
    rfl
  rw [hanalyze, analyzeForm] at h
  cases hresult : (analyze (session.context locals) form).result with
  | ok expr =>
    rw [hresult] at h
    cases h
  | error error =>
    rw [hresult] at h
    cases h
    exact ⟨error, rfl, analyze_failsInside _ _ _ hresult⟩

/-- **Analysis errors point at the source.** When a source reads as one form and its analysis fails, the
error is not an internal one and its span is that of the form or of a form inside it. The report shows
the line on which that form starts with carets from the column of the form on, and if the form is on
one line there is a caret for each byte of its text. -/
theorem Session.analyzeText_report {session : Session} {locals : LexicalEnv} {source : String}
    {form : Form} {e : SessionError} (hread : readOne source = .ok form)
    (h : session.analyzeText locals source = .error e) :
    ∃ (error : InteropError) (inner : Form) (piece : List Char) (carets : Nat) (shown : String),
      e = .interop error ∧ error.isInternal = false ∧
      inner.Inside form ∧ error.span? = some inner.span ∧
      inner.span.Covers source.toList piece ∧
      e.report source = e.message ++ "\n" ++ shown ∧
      inner.span.ShowsCarets source carets shown ∧ 0 < carets ∧
      (inner.span.first.line = inner.span.last.line → carets = byteLength piece) := by
  obtain ⟨error, rfl, hat⟩ := exists_of_analyzeText_error hread h
  have hinternal := hat.isInternal
  obtain ⟨_, hspan, inner, hinner, rfl⟩ := hat
  obtain ⟨piece, hcovers, hne, hlast⟩ :=
    exists_piece_of_inside (readOne_eq_ok_iff.mp hread) (.head _) hinner
  have hreturn : piece.getLast? ≠ some '\r' := fun hreturn => by cases hlast '\r' hreturn
  obtain ⟨carets, hpos, hshown, hone⟩ := hcovers.showsCarets hne hreturn
  refine ⟨error, inner, piece, carets, inner.span.context source, rfl, hinternal, hinner, hspan,
    hcovers, ?_, hshown, hpos, hone⟩
  rw [SessionError.report, SessionError.span?, hspan]

/-- A name of two bytes on the second line, as the argument of a call that is an argument. -/
theorem Session.analyzeText_report_argument :
    let session : Session :=
      { options := {}, catalog := { entries := [], declared := [] }, names := { name := "user" } }
    let source := "(. 1 (Add\r\n 2 (. 3 (Add é))))"
    let place : Span := { start := 24, stop := 26, first := ⟨2, 14⟩, last := ⟨2, 16⟩ }
    ∃ form e shown, readOne source = .ok form ∧ session.analyzeText {} source = .error e ∧
      e.span? = some place ∧ e.report source = e.message ++ "\n" ++ shown ∧
      place.ShowsCarets source 2 shown := by
  intro session source place
  have hrun : (match readOne source, session.analyzeText {} source with
      | .ok _, .error e => decide (e.span? = some place)
      | _, _ => false) = true := by
    decide +kernel
  split at hrun
  · rename_i form e hform herror
    have hplace : e.span? = some place := of_decide_eq_true hrun
    obtain ⟨error, inner, piece, carets, shown, rfl, -, -, hspan, hcovers, hreport, hshown, -,
      hone⟩ := analyzeText_report hform herror
    have hinner : inner.span = place := Option.some.inj (hspan.symm.trans hplace)
    rw [hinner] at hcovers hshown hone
    obtain ⟨⟨_, _, -, -, hstop⟩, -⟩ := hcovers
    obtain rfl : carets = 2 := by
      have hcarets : carets = byteLength piece := hone rfl
      have hlength : 26 = 24 + byteLength piece := hstop
      omega
    exact ⟨form, _, shown, hform, herror, hplace, hreport, hshown⟩
  · cases hrun

end Interop
