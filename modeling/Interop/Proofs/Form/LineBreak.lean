import Interop.Proofs.Form.Grammar
import Interop.Proofs.Token.LineBreak

/-! Reading line by line. A text that is read without error can be read on its own: what follows
after a line break reads as it would by itself, further on in bytes and further down in lines. -/

namespace Interop

/-- Where a span stands when a text and a line break come in front. -/
def Span.below (text : String) (span : Span) : Span where
  start := span.start + (text.utf8ByteSize + 1)
  stop := span.stop + (text.utf8ByteSize + 1)
  first := span.first.down (text.toList.count '\n' + 1)
  last := span.last.down (text.toList.count '\n' + 1)

theorem Span.below_through (text : String) (a b : Span) :
    (a.through b).below text = (a.below text).through (b.below text) := rfl

theorem LineIndex.span_after_break (text : String) (more : List Char) (start stop : Nat) :
    (ofText (text.toList ++ '\n' :: more)).span (text.utf8ByteSize + 1 + start)
      (text.utf8ByteSize + 1 + stop) = ((ofText more).span start stop).below text := by
  have hposition := position_after_break text.toList more
  rw [byteLength_toList] at hposition
  simp only [span, Span.below, hposition]
  congr 1 <;> omega

/-! ## Two texts -/

/-- What is read to its end without error is read the same when more follows. -/
theorem resume_append {atEnd : Span} {groups : List OpenGroup} {items : List TokenResult}
    {forms : List Form} (hgroups : ∀ group ∈ groups, group.span.IsByte)
    (hitems : ∀ item ∈ items, TokenResult.InPlace item)
    (h : resume atEnd groups items = .ok forms) (atEnd' : Span) (more : List TokenResult) :
    resume atEnd' groups (items ++ more) = (resume atEnd' [] more).map (forms ++ ·) := by
  induction items generalizing groups forms with
  | nil =>
    cases groups with
    | nil =>
      rw [resume_nil_nil] at h
      cases h
      rw [List.nil_append]
      cases resume atEnd' [] more <;> rfl
    | cons group outer => cases h
  | cons item items ih =>
    obtain ⟨hitem, hitems⟩ := List.forall_mem_cons.mp hitems
    cases hfirst : TokenResult.offence? (groups.map (·.delimiter)) item with
    | some e =>
      rw [resume_offence hfirst] at h
      cases h
    | none =>
      obtain ⟨next, finished, piece, hnext, -, hbytes, -, -⟩ := resume_step hfirst hitem hgroups
      rw [hnext] at h
      rw [List.cons_append, hnext]
      cases hrest : resume atEnd next items with
      | error e =>
        rw [hrest] at h
        cases h
      | ok rest =>
        rw [hrest] at h
        cases h
        rw [ih hbytes hitems hrest]
        cases resume atEnd' [] more <;> simp [Except.map]

/-- A text that is read without error consists of tokens. -/
theorem tokens_of_readAll {source : String} {forms : List Form}
    (h : readAll source = .ok forms) : ∀ item ∈ tokenize source, ∃ token, item = .ok token := by
  obtain ⟨tokens, htokens, -⟩ :=
    TokenResult.noOffence_iff_nestedWithin.mp (readAll_isOk_iff.mp ⟨forms, h⟩)
  intro item hitem
  rw [htokens] at hitem
  obtain ⟨token, -, rfl⟩ := List.mem_map.mp hitem
  exact ⟨token, rfl⟩

theorem toList_append_line (a b : String) :
    (a ++ "\n" ++ b).toList = a.toList ++ '\n' :: b.toList := by simp

/-- The tokens of two texts with a line break between them. -/
theorem tokenize_append_line {a : String}
    (h : ∀ item ∈ tokenize a, ∃ token, item = .ok token) (b : String) :
    tokenize (a ++ "\n" ++ b) = tokenize a ++ (tokenize b).map (·.mapSpan (Span.below a)) := by
  let lines := LineIndex.ofText (a.toList ++ '\n' :: b.toList)
  have hlines : ∀ offset ≤ (Cursor.ofText a.toList).reach,
      lines.position offset = (LineIndex.ofText a.toList).position offset := by
    intro offset hoffset
    refine LineIndex.position_append_left _ ?_
    simpa [Cursor.reach, Cursor.ofText] using hoffset
  have hsecond : (Cursor.ofText a.toList).nextLine b.toList =
      (Cursor.ofText b.toList).forward (a.utf8ByteSize + 1) := by
    simp [Cursor.nextLine, Cursor.reach, Cursor.ofText, Cursor.forward]
  have hwhole : Cursor.ofText (a.toList ++ '\n' :: b.toList) =
      (Cursor.ofText a.toList).withLine b.toList := rfl
  rw [tokenize, toList_append_line, hwhole, Cursor.tokens_withLine hlines h, hsecond,
    Cursor.tokens_forward (LineIndex.span_after_break a b.toList)]
  rfl

theorem endSpan_append_line (a b : String) :
    endSpan (a ++ "\n" ++ b) = (endSpan b).below a := by
  have hsize : (a ++ "\n" ++ b).utf8ByteSize = a.utf8ByteSize + 1 + b.utf8ByteSize := by
    simp only [String.utf8ByteSize_append]
    rfl
  rw [endSpan, toList_append_line, hsize, LineIndex.span_after_break]
  rfl

/-- **Line breaks separate.** After a text that reads as some forms comes a line break and another
text: the whole reads as the forms of the first and then those of the second, or as the error of
the second, in each case where the second text stands. -/
theorem readAll_append_line (a b : String) {forms : List Form} (h : readAll a = .ok forms) :
    readAll (a ++ "\n" ++ b) =
      match readAll b with
      | .ok more => .ok (forms ++ more.map (Form.mapSpans (Span.below a)))
      | .error e => .error (e.mapSpan (Span.below a)) := by
  have hgroups : ∀ group ∈ ([] : List OpenGroup), group.span.IsByte := nofun
  have hitems : ∀ item ∈ tokenize a, TokenResult.InPlace item := fun item =>
    TokenResult.inPlace_of_mem_tokenize
  have hsecond : resume ((endSpan b).below a) [] ((tokenize b).map (·.mapSpan (Span.below a))) =
      mapReadSpans (Span.below a) (readAll b) := readForms_mapSpans (Span.below_through a) _
  calc readAll (a ++ "\n" ++ b)
    _ = resume ((endSpan b).below a) []
          (tokenize a ++ (tokenize b).map (·.mapSpan (Span.below a))) := by
        rw [readAll, tokenize_append_line (tokens_of_readAll h), endSpan_append_line]
        rfl
    _ = (mapReadSpans (Span.below a) (readAll b)).map (forms ++ ·) := by
        rw [resume_append hgroups hitems h, hsecond]
    _ = _ := by cases readAll b <;> rfl

/-- A comment at the end of the first text ends with its line. -/
theorem readAll_append_line_comment :
    ∃ forms more, readAll "(a\n b) ; c" = .ok forms ∧ readAll "[d]" = .ok more ∧
      readAll ("(a\n b) ; c" ++ "\n" ++ "[d]") =
        .ok (forms ++ more.map (Form.mapSpans (Span.below "(a\n b) ; c"))) := by
  have hfirst : ∃ forms, readAll "(a\n b) ; c" = .ok forms :=
    except_isOk_iff.mp (by decide +kernel)
  have hsecond : ∃ more, readAll "[d]" = .ok more := except_isOk_iff.mp (by decide +kernel)
  obtain ⟨forms, hforms⟩ := hfirst
  obtain ⟨more, hmore⟩ := hsecond
  refine ⟨forms, more, hforms, hmore, ?_⟩
  rw [readAll_append_line _ _ hforms, hmore]

end Interop
