import Interop.Proofs.Text.Lines
import Mathlib.Data.List.Basic

/-! Spans and the text at them. A span covers a piece of a text when it starts where the piece does,
ends where the piece does, and has the positions that these two offsets have in the text. What is
shown of such a span on one line is the whole piece, underlined to its last byte. -/

namespace Interop

/-- Whether a piece of a text takes the bytes from one offset up to another. -/
def IsSlice (text : List Char) (start stop : Nat) (piece : List Char) : Prop :=
  ∃ before after, text = before ++ piece ++ after ∧ start = byteLength before ∧
    stop = start + byteLength piece

def Span.Covers (text : List Char) (span : Span) (piece : List Char) : Prop :=
  IsSlice text span.start span.stop piece ∧
    span = (LineIndex.ofText text).span span.start span.stop

variable {text piece : List Char} {span : Span}

theorem IsSlice.stop_le {start stop : Nat} (h : IsSlice text start stop piece) :
    stop ≤ byteLength text := by
  obtain ⟨before, after, rfl, rfl, rfl⟩ := h
  simp only [byteLength_append]
  omega

theorem IsSlice.start_lt {start stop : Nat} (h : IsSlice text start stop piece)
    (hne : piece ≠ []) : start < stop := by
  obtain ⟨before, after, -, -, rfl⟩ := h
  have := mt byteLength_eq_zero.mp hne
  omega

/-! ## On one line -/

/-- The line of a place is one more than the newlines before it. -/
theorem LineIndex.position_line (before after : List Char) :
    ((ofText (before ++ after)).position (byteLength before)).line = before.count '\n' + 1 := by
  rw [position_append_left _ (Nat.le_refl _), position_byteLength]

/-- A piece on one line is a text without newlines. -/
theorem Span.Covers.notMem_newline (h : span.Covers text piece)
    (hline : span.first.line = span.last.line) : '\n' ∉ piece := by
  obtain ⟨⟨before, after, rfl, hstart, hstop⟩, hspan⟩ := h
  have hfirst := LineIndex.position_line before (piece ++ after)
  have hlast := LineIndex.position_line (before ++ piece) after
  rw [← List.append_assoc, ← hstart] at hfirst
  rw [byteLength_append, ← hstart, ← hstop] at hlast
  rw [hspan] at hline
  simp only [LineIndex.span, hfirst, hlast, List.count_append] at hline
  exact List.count_eq_zero.mp (by omega)

/-- What stands in front of the first line break is on the first line, unless a carriage return at
its end belongs to the line break. -/
theorem isPrefix_firstLine {front after line below : List Char}
    (h : front ++ after = line ++ below) (hends : EndsLine line below) (hfront : '\n' ∉ front)
    (hlast : front.getLast? ≠ some '\r') : front <+: line := by
  rcases List.append_eq_append_iff.mp h with ⟨more, hline, -⟩ | ⟨rest, hrest, hbelow⟩
  · exact ⟨more, hline.symm⟩
  · -- The front would go on into the line break.
    have hnewline : '\n' ∉ rest := fun hmem => hfront (hrest ▸ List.mem_append_right _ hmem)
    rcases rest with _ | ⟨c, _ | ⟨d, rest⟩⟩
    · exact ⟨[], by simp [hrest]⟩
    · cases hends with
      | textEnd => cases hbelow
      | newline _ =>
        cases hbelow
        simp at hnewline
      | carriageReturn =>
        cases hbelow
        simp [hrest] at hlast
    · cases hends <;> cases hbelow <;> simp at hnewline

/-- **Carets on one line.** Under a piece on one line that does not end in a carriage return there are
as many carets as it has bytes. -/
theorem Span.Covers.caretCount (h : span.Covers text piece) (hne : piece ≠ [])
    (hline : span.first.line = span.last.line) (hlast : piece.getLast? ≠ some '\r')
    {line : List Char} (hshown : IsLine text span.first.line line) :
    span.caretCount line = byteLength piece := by
  have hnewline := h.notMem_newline hline
  obtain ⟨⟨before, after, rfl, hstart, hstop⟩, hspan⟩ := h
  obtain ⟨above, indent, rfl, habove, hindent⟩ := exists_startsLine before
  have hfront : '\n' ∉ indent ++ piece := by simp [hindent, hnewline]
  have hfirst : span.first = { line := above.count '\n' + 1, column := byteLength indent + 1 } := by
    rw [hspan, LineIndex.span, hstart, List.append_assoc]
    exact LineIndex.position_of_line habove hindent _
  have hend : span.last =
      { line := above.count '\n' + 1, column := byteLength (indent ++ piece) + 1 } := by
    rw [hspan, LineIndex.span, hstop, hstart, ← byteLength_append, List.append_assoc above]
    exact LineIndex.position_of_line habove hfront _
  -- The line is the one that begins with the indentation and the piece.
  obtain ⟨line', below, hsplit, hline', hends⟩ := exists_firstLine (indent ++ piece ++ after)
  have hsame : line = line' := by
    refine hshown.unique ⟨above, below, ?_, habove, by rw [hfirst], hline', hends⟩
    rw [List.append_assoc above line', ← hsplit]
    simp
  have hpiece : (indent ++ piece).getLast? ≠ some '\r' := by
    rwa [List.getLast?_append_of_ne_nil _ hne]
  obtain ⟨more, rfl⟩ := isPrefix_firstLine hsplit hends hfront hpiece
  have hpos := mt byteLength_eq_zero.mp hne
  simp only [Span.caretCount, hsame, hfirst, hend, byteLength_append, if_true]
  omega

end Interop
