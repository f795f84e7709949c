import Interop.Proofs.Text.Position
import Mathlib.Data.List.Induction

/-! The line of a place. A line is known by the newlines before it, also when it is empty and the
last one; `textLines` gives every other line. So what is shown of a span is the line that it starts
on, unless that is where the text ends and its last line is empty. -/

namespace Interop

/-! ## Lines -/

/-- Whether a new line starts after a text. -/
def StartsLine (before : List Char) : Prop := before = [] ∨ ∃ above, before = above ++ ['\n']

/-- What can come after a line: nothing, or a line break. A carriage return is part of the line
break that it stands in. -/
inductive EndsLine (line : List Char) : List Char → Prop
  | textEnd : EndsLine line []
  | newline {below : List Char} : line.getLast? ≠ some '\r' → EndsLine line ('\n' :: below)
  | carriageReturn {below : List Char} : EndsLine line ('\r' :: '\n' :: below)

/-- A line of a text, by its number from one. -/
def IsLine (text : List Char) (number : Nat) (line : List Char) : Prop :=
  ∃ above below, text = above ++ line ++ below ∧ StartsLine above ∧
    number = above.count '\n' + 1 ∧ '\n' ∉ line ∧ EndsLine line below

/-- No new line starts inside a line. -/
theorem StartsLine.eq_nil_of_append {above indent : List Char} (h : StartsLine (above ++ indent))
    (hindent : '\n' ∉ indent) : indent = [] := by
  rcases h with hnil | ⟨text, htext⟩
  · exact (List.append_eq_nil_iff.mp hnil).2
  · cases indent using List.reverseRecOn with
    | nil => rfl
    | append_singleton front c =>
      rw [← List.append_assoc] at htext
      obtain ⟨-, hc⟩ := List.append_inj' htext rfl
      cases hc
      simp at hindent

/-- Every place in a text is on a line. -/
theorem exists_startsLine (before : List Char) :
    ∃ above indent, before = above ++ indent ∧ StartsLine above ∧ '\n' ∉ indent := by
  induction before using List.reverseRecOn with
  | nil => exact ⟨[], [], rfl, .inl rfl, by simp⟩
  | append_singleton before c ih =>
    by_cases hc : c = '\n'
    · subst hc
      exact ⟨before ++ ['\n'], [], by simp, .inr ⟨before, rfl⟩, by simp⟩
    · obtain ⟨above, indent, rfl, habove, hindent⟩ := ih
      exact ⟨above, indent ++ [c], by simp, habove, by simp [hindent, Ne.symm hc]⟩

theorem StartsLine.getLastD_startsFrom {above : List Char} (h : StartsLine above) :
    (LineIndex.startsFrom 0 above).getLastD 0 = byteLength above := by
  rcases h with rfl | ⟨above, rfl⟩
  · rfl
  · have hnewline : '\n'.utf8Size = 1 := rfl
    simp [LineIndex.startsFrom_append, LineIndex.startsFrom, hnewline]

theorem LineIndex.startsFrom_of_notMem {offset : Nat} {text : List Char} (h : '\n' ∉ text) :
    startsFrom offset text = [] := by
  rw [← List.length_eq_zero_iff, length_startsFrom]
  exact List.count_eq_zero.mpr h

/-- The position of a place is the number of its line, and how far into the line it is. -/
theorem LineIndex.position_of_line {above indent : List Char} (habove : StartsLine above)
    (hindent : '\n' ∉ indent) (rest : List Char) :
    (ofText (above ++ indent ++ rest)).position (byteLength (above ++ indent)) =
      { line := above.count '\n' + 1, column := byteLength indent + 1 } := by
  have hcount : (above ++ indent).count '\n' = above.count '\n' := by
    rw [List.count_append, List.count_eq_zero.mpr hindent, Nat.add_zero]
  have hstarts : startsFrom 0 (above ++ indent) = startsFrom 0 above := by
    rw [startsFrom_append, startsFrom_of_notMem hindent, List.append_nil]
  rw [position_append_left _ (Nat.le_refl _), position_byteLength, hcount, hstarts,
    habove.getLastD_startsFrom, byteLength_append, Nat.add_sub_cancel_left]

/-! ## Splitting a text into lines -/

theorem textLines_go_append {cs : List Char} (h : '\n' ∉ cs) (line rest : List Char) :
    textLines.go line (cs ++ rest) = textLines.go (cs.reverse ++ line) rest := by
  induction cs generalizing line with
  | nil => rfl
  | cons c cs ih =>
    have hc : c ≠ '\n' := fun hc => h (by simp [hc])
    have hcs : '\n' ∉ cs := fun hcs => h (List.mem_cons_of_mem c hcs)
    rw [List.cons_append, textLines.go, if_neg hc, ih hcs]
    simp

theorem textLines_go_break (line before : List Char) :
    ∃ lines : List (List Char), lines.length = before.count '\n' + 1 ∧
      ∀ rest, textLines.go line (before ++ '\n' :: rest) = lines ++ textLines rest := by
  induction before generalizing line with
  | nil => exact ⟨[textLines.ended line], by simp, fun rest => by simp [textLines.go, textLines]⟩
  | cons c before ih =>
    by_cases hc : c = '\n'
    · obtain ⟨lines, hlength, hlines⟩ := ih []
      exact ⟨textLines.ended line :: lines, by simp [hc, hlength],
        fun rest => by simp [textLines.go, hc, hlines]⟩
    · obtain ⟨lines, hlength, hlines⟩ := ih (c :: line)
      exact ⟨lines, by simp [hc, hlength], fun rest => by simp [textLines.go, hc, hlines]⟩

/-- Lines above do not change a line but for its number. -/
theorem textLines_below {above : List Char} (habove : StartsLine above) (text : List Char) :
    (textLines (above ++ text))[above.count '\n']? = (textLines text).head? := by
  rcases habove with rfl | ⟨above, rfl⟩
  · simp [List.head?_eq_getElem?]
  · obtain ⟨lines, hlength, hlines⟩ := textLines_go_break [] above
    have hsplit : textLines (above ++ ['\n'] ++ text) = lines ++ textLines text := by
      rw [← hlines]
      simp [textLines]
    have hcount : (above ++ ['\n']).count '\n' = lines.length := by simp [hlength]
    rw [hsplit, hcount, List.getElem?_append_right (Nat.le_refl _), Nat.sub_self,
      List.head?_eq_getElem?]

/-- Every text begins with a line. -/
theorem exists_firstLine (text : List Char) :
    ∃ line below, text = line ++ below ∧ '\n' ∉ line ∧ EndsLine line below := by
  by_cases hmem : '\n' ∈ text
  · obtain ⟨front, below, rfl, hfront⟩ := List.eq_append_cons_of_mem hmem
    -- A carriage return in front of the newline ends the line, and is no part of it.
    by_cases hreturn : front.getLast? = some '\r'
    · obtain ⟨line, rfl⟩ := List.getLast?_eq_some_iff.mp hreturn
      have hline : '\n' ∉ line := fun hc => hfront (List.mem_append_left _ hc)
      exact ⟨line, '\r' :: '\n' :: below, by simp, hline, .carriageReturn⟩
    · exact ⟨front, '\n' :: below, rfl, hfront, .newline hreturn⟩
  · exact ⟨text, [], (List.append_nil text).symm, hmem, .textEnd⟩

/-- The first line is the first to be listed, if there is any text. -/
theorem head?_textLines {line below : List Char} (hline : '\n' ∉ line)
    (hends : EndsLine line below) (hne : line ++ below ≠ []) :
    (textLines (line ++ below)).head? = some line := by
  rw [textLines, textLines_go_append hline, List.append_nil]
  cases hends with
  | textEnd =>
    rw [List.append_nil] at hne
    simp [textLines.go, hne]
  | carriageReturn => simp [textLines.go, textLines.ended]
  | newline hreturn =>
    suffices hended : textLines.ended line.reverse = line by simp [textLines.go, hended]
    cases line using List.reverseRecOn with
    | nil => rfl
    | append_singleton front c =>
      have hc : c ≠ '\r' := by simpa using hreturn
      simp [textLines.ended, hc]

/-- No text has two lines of one number. -/
theorem IsLine.unique {text line other : List Char} {number : Nat} (h : IsLine text number line)
    (h' : IsLine text number other) : line = other := by
  suffices hlisted : ∀ line, IsLine text number line →
      line = (textLines text)[number - 1]?.getD [] from
    (hlisted line h).trans (hlisted other h').symm
  rintro line ⟨above, below, rfl, habove, rfl, hline, hends⟩
  rw [List.append_assoc, Nat.add_sub_cancel, textLines_below habove]
  by_cases hne : line ++ below = []
  · rw [hne, (List.append_eq_nil_iff.mp hne).1]
    rfl
  · rw [head?_textLines hline hends hne, Option.getD_some]

/-! ## Showing a place -/

/-- Whether a text shows where a span starts: the line on it, behind its number, and below the line
some carets from the column on. -/
def Span.ShowsStart (span : Span) (source shown : String) : Prop :=
  ∃ (line : List Char) (carets : Nat), IsLine source.toList span.first.line line ∧ 0 < carets ∧
    shown = "  " ++ toString span.first.line ++ " | " ++ String.ofList line ++ "\n  "
      ++ String.ofList (List.replicate (toString span.first.line).length ' ') ++ " | "
      ++ String.ofList (List.replicate (span.first.column - 1) ' ')
      ++ String.ofList (List.replicate carets '^')

theorem Span.ShowsStart.ne_empty {span : Span} {source shown : String}
    (h : span.ShowsStart source shown) : shown ≠ "" := by
  obtain ⟨line, carets, -, -, rfl⟩ := h
  intro hempty
  have hlength := congrArg String.length hempty
  simp at hlength

/-- A span stands in a text when its first position is that of a place in the text. -/
def Span.StandsIn (text : List Char) (span : Span) : Prop :=
  ∃ before rest, text = before ++ rest ∧ span.start = byteLength before ∧
    span.first = (LineIndex.ofText text).position (byteLength before)

theorem Span.caretCount_pos (span : Span) (line : List Char) : 0 < span.caretCount line :=
  Nat.lt_of_lt_of_le Nat.one_pos (Nat.le_max_right _ _)

/-- A text is cut where the line of a span starts. Nothing is left of it just when the span starts at
the end of the text and nothing is on that line. -/
theorem Span.StandsIn.exists_cut {span : Span} {source : String} (h : span.StandsIn source.toList) :
    ∃ above rest, source.toList = above ++ rest ∧ StartsLine above ∧
      span.first.line = above.count '\n' + 1 ∧
      (rest = [] ↔ span.start = source.utf8ByteSize ∧ StartsLine source.toList) := by
  obtain ⟨before, rest, htext, hstart, hfirst⟩ := h
  obtain ⟨above, indent, rfl, habove, hindent⟩ := exists_startsLine before
  rw [htext, LineIndex.position_of_line habove hindent] at hfirst
  refine ⟨above, indent ++ rest, by rw [htext, List.append_assoc], habove,
    congrArg Position.line hfirst, ?_⟩
  have hsize := congrArg byteLength htext
  rw [byteLength_toList, byteLength_append, ← hstart] at hsize
  constructor
  · intro hnil
    obtain ⟨rfl, rfl⟩ := List.append_eq_nil_iff.mp hnil
    rw [List.append_nil, List.append_nil] at htext
    exact ⟨by simpa using hsize.symm, htext ▸ habove⟩
  · rintro ⟨hend, hsource⟩
    obtain rfl : rest = [] := byteLength_eq_zero.mp (by omega)
    rw [List.append_nil] at htext ⊢
    exact (htext ▸ hsource).eq_nil_of_append hindent

/-- The line of a span is listed, unless the span starts at the end of the text and nothing is on the
last line; then no line of that number is. -/
theorem Span.StandsIn.listed_cases {span : Span} {source : String} (h : span.StandsIn source.toList) :
    (¬ (span.start = source.utf8ByteSize ∧ StartsLine source.toList) ∧
        ∃ line, IsLine source.toList span.first.line line ∧
          (textLines source.toList)[span.first.line - 1]? = some line) ∨
      (span.start = source.utf8ByteSize ∧ StartsLine source.toList) ∧
        (textLines source.toList)[span.first.line - 1]? = none := by
  obtain ⟨above, rest, htext, habove, hnumber, hend⟩ := h.exists_cut
  have hlisted : (textLines source.toList)[span.first.line - 1]? = (textLines rest).head? := by
    rw [htext, hnumber, Nat.add_sub_cancel, textLines_below habove]
  rw [← hend, hlisted]
  by_cases hrest : rest = []
  · exact .inr ⟨hrest, by rw [hrest]; rfl⟩
  · obtain ⟨line, below, rfl, hline, hends⟩ := exists_firstLine rest
    refine .inl ⟨hrest, line, ?_, head?_textLines hline hends hrest⟩
    exact ⟨above, below, by rw [htext, List.append_assoc], habove, hnumber, hline, hends⟩

/-- **What is shown of a span.** A span in a text is shown on its line, unless it starts at the end
of the text and nothing is on the last line; then nothing is shown. -/
theorem Span.context_cases {span : Span} {source : String} (h : span.StandsIn source.toList) :
    ¬ (span.start = source.utf8ByteSize ∧ StartsLine source.toList) ∧
        span.ShowsStart source (span.context source) ∨
      (span.start = source.utf8ByteSize ∧ StartsLine source.toList) ∧ span.context source = "" := by
  rcases h.listed_cases with ⟨hinside, line, hline, hlisted⟩ | ⟨hend, hlisted⟩
  · refine .inl ⟨hinside, line, span.caretCount line, hline, span.caretCount_pos line, ?_⟩
    simp only [context, hlisted]
  · refine .inr ⟨hend, ?_⟩
    simp only [context, hlisted]

end Interop
