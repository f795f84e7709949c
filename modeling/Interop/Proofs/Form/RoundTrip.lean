import Interop.Proofs.Form.Datum
import Interop.Proofs.Form.Grammar

/-! Printed forms read back. The text of a form consists of its lexemes, whatever comes after it, as
long as no token of it goes on there; and reading the lexemes of a form gives the form. -/

namespace Interop

namespace Form

/-- The forms that read back: groups of such forms, down to datums that do. -/
inductive Readable : Form → Prop
  | leaf {datum : Datum} {span : Span} : datum.Readable → Readable (.leaf datum span)
  | group {delimiter : Delimiter} {items : List Form} {span : Span} :
      (∀ item ∈ items, Readable item) → Readable (.group delimiter items span)

mutual

/-- The tokens that a form is printed as. -/
def lexemes : Form → List (TokenKind × List Char)
  | .leaf datum _ => [(.leaf datum.leafKind, datum.text.toList)]
  | .group delimiter items _ =>
    (.opening delimiter, delimiter.opening.toList) ::
      (lexemesList items ++ [(.closing delimiter, delimiter.closing.toList)])

def lexemesList : List Form → List (TokenKind × List Char)
  | [] => []
  | form :: forms => form.lexemes ++ lexemesList forms

end

/-! ## Printing -/

/-- The items of a group after the first one are kept apart from what comes before them. -/
theorem separated_textRest (forms : List Form) {rest : List Char} (hrest : Separated rest) :
    Separated ((textRest forms).toList ++ rest) := by
  cases forms with
  | nil => simpa [textRest] using hrest
  | cons form forms =>
    have htext : (textRest (form :: forms)).toList ++ rest =
        ' ' :: (form.text.toList ++ (textRest forms).toList ++ rest) := by
      simp [textRest]
    rw [htext]
    exact separated_cons rfl _

theorem separated_closing (delimiter : Delimiter) (rest : List Char) :
    Separated (delimiter.closing.toList ++ rest) := by
  cases delimiter <;> exact separated_cons rfl rest

-- The recursion is that of the printer. What comes after the text stands in the statements, since a
-- group prints its items in front of its closing delimiter.
mutual

/-- In front of a text that is kept apart from it, the text of a form spells its lexemes. -/
theorem spells_text : (form : Form) → form.Readable → ∀ {rest after}, Separated rest →
    Spells rest after → Spells (form.text.toList ++ rest) (form.lexemes ++ after)
  | .leaf _ _, .leaf hdatum, rest, _, hrest, hafter =>
    hafter.token (hdatum.readsBack.2 rest hrest)
  | .group delimiter items _, .group hitems, rest, _, _, hafter => by
    have hclosing := hafter.token (Lexeme.isToken_closing delimiter)
    have hinside := spells_textList items hitems (separated_closing delimiter rest) hclosing
    have hwhole := hinside.token (Lexeme.isToken_opening delimiter)
    simpa [text, lexemes] using hwhole

theorem spells_textList : (forms : List Form) → (∀ form ∈ forms, form.Readable) →
    ∀ {rest after}, Separated rest → Spells rest after →
    Spells ((textList forms).toList ++ rest) (lexemesList forms ++ after)
  | [], _, _, _, _, hafter => by simpa [textList, lexemesList] using hafter
  | form :: forms, hforms, _, _, hrest, hafter => by
    obtain ⟨hform, hforms⟩ := List.forall_mem_cons.mp hforms
    have hlater := spells_textRest forms hforms hrest hafter
    have hfirst := spells_text form hform (separated_textRest forms hrest) hlater
    simpa [textList, lexemesList] using hfirst

theorem spells_textRest : (forms : List Form) → (∀ form ∈ forms, form.Readable) →
    ∀ {rest after}, Separated rest → Spells rest after →
    Spells ((textRest forms).toList ++ rest) (lexemesList forms ++ after)
  | [], _, _, _, _, hafter => by simpa [textRest, lexemesList] using hafter
  | form :: forms, hforms, _, _, hrest, hafter => by
    obtain ⟨hform, hforms⟩ := List.forall_mem_cons.mp hforms
    have hlater := spells_textRest forms hforms hrest hafter
    have hfirst := spells_text form hform (separated_textRest forms hrest) hlater
    simpa [textRest, lexemesList] using hfirst.space

end

/-- The tokens of the text of a form are its lexemes. -/
theorem lexemes_text {form : Form} (h : form.Readable) :
    (tokenize form.text).map TokenResult.lexeme? = form.lexemes.map some := by
  have hspells := spells_text form h separated_nil spells_nil
  rw [List.append_nil, List.append_nil] at hspells
  exact hspells.tokenize

/-! ## Reading -/

/-- A form that stands nowhere. -/
def withoutSpans (form : Form) : Form := form.mapSpans fun _ => {}

theorem withoutSpans_group (delimiter : Delimiter) (items : List Form) (span : Span) :
    withoutSpans (.group delimiter items span) = .group delimiter (items.map withoutSpans) {} := by
  rw [withoutSpans, mapSpans, mapSpansList_eq_map]
  rfl

mutual

/-- Reading on at the lexemes of a form, the form comes next. -/
theorem resume_lexemes : (form : Form) → form.Readable → ∀ groups items,
    resume {} groups (form.lexemes.map unplaced ++ items) =
      resumeWith {} form.withoutSpans groups items
  | .leaf _ _, .leaf hdatum, _, _ => resume_leaf rfl hdatum.readsBack.1
  | .group delimiter forms _, .group hforms, groups, items => by
    have hsplit : (lexemes (.group delimiter forms {})).map unplaced ++ items =
        unplaced (.opening delimiter, delimiter.opening.toList) ::
          ((lexemesList forms).map unplaced ++
            unplaced (.closing delimiter, delimiter.closing.toList) :: items) := by
      simp [lexemes]
    have hclosed : (OpenGroup.mk delimiter {} ((forms.map withoutSpans).reverse ++ [])).close {} =
        .group delimiter (forms.map withoutSpans) {} := by
      simp [OpenGroup.close, Span.through]
    calc resume {} groups ((lexemes (.group delimiter forms {})).map unplaced ++ items)
      _ = resume {} ({ delimiter, span := {} } :: groups) ((lexemesList forms).map unplaced ++
            unplaced (.closing delimiter, delimiter.closing.toList) :: items) := by
          rw [hsplit]
          exact resume_opening rfl
      _ = resumeWith {} (.group delimiter (forms.map withoutSpans) {}) groups items := by
          rw [resume_lexemesList forms hforms, ← hclosed]
          exact resume_closing rfl
      _ = _ := by rw [withoutSpans_group]

/-- Reading on inside a group at the lexemes of some forms, the group gets these forms. -/
theorem resume_lexemesList : (forms : List Form) → (∀ form ∈ forms, form.Readable) →
    ∀ inner outer items, resume {} (inner :: outer) ((lexemesList forms).map unplaced ++ items) =
      resume {} ({ inner with items := (forms.map withoutSpans).reverse ++ inner.items } :: outer)
        items
  | [], _, _, _, _ => rfl
  | form :: forms, hforms, _, _, _ => by
    obtain ⟨hform, hforms⟩ := List.forall_mem_cons.mp hforms
    rw [lexemesList, List.map_append, List.append_assoc, resume_lexemes form hform, resumeWith,
      resume_lexemesList forms hforms]
    simp [OpenGroup.add]

end

theorem readForms_lexemes {form : Form} (h : form.Readable) :
    readForms {} (form.lexemes.map unplaced) = .ok [form.withoutSpans] := by
  have hread := resume_lexemes form h [] []
  rw [List.append_nil, resumeWith, resume_nil_nil] at hread
  exact hread

end Form

/-- **Printed forms read back.** The text of a form whose datums all read back is the text of one
form, and that is the same form but for its spans. -/
theorem readOne_text {form : Form} (h : form.Readable) :
    ∃ read, readOne form.text = .ok read ∧ read.withoutSpans = form.withoutSpans := by
  have hmap := @readForms_mapSpans (fun _ => {}) (endSpan form.text) (fun _ _ => rfl)
    (tokenize form.text)
  rw [map_mapSpan_eq_unplaced (Form.lexemes_text h), Form.readForms_lexemes h] at hmap
  cases hread : readForms (endSpan form.text) (tokenize form.text) with
  | error e =>
    rw [hread] at hmap
    cases hmap
  | ok forms =>
    rw [hread] at hmap
    obtain ⟨read, rfl, hsame⟩ := List.map_eq_singleton_iff.mp (Except.ok.inj hmap).symm
    exact ⟨read, readOne_eq_ok_iff.mpr hread, hsame⟩

/-- The least integer, an escaped quote and line break, and a parenthesis as a character. -/
theorem readOne_text_nested :
    let leaf (datum : Datum) : Form := .leaf datum {}
    let form : Form := .group .paren
      [.group .bracket [leaf (.char '('), leaf (.string "a\"\n"),
          leaf (.int (-9223372036854775808))] {},
        leaf (.keyword { qualifier := some "a", name := "b" }), .group .paren [] {}] {}
    form.Readable ∧ form.text = "([\\( \"a\\\"\\n\" -9223372036854775808] :a/b ())" ∧
      ∃ read, readOne form.text = .ok read ∧ read.withoutSpans = form.withoutSpans := by
  intro leaf form
  have hatom : Datum.IsAtom (.keyword { qualifier := some "a", name := "b" }) := by
    refine ⟨":a/b", { kind := .leaf .atom, text := ":a/b".toList, span := ?_ }, ?_, rfl, rfl⟩
    · exact { start := 0, stop := 4, first := ⟨1, 1⟩, last := ⟨1, 5⟩ }
    · decide +kernel
  have hplain : ∀ c ∈ ['a', '"', '\n'], IsPlain c := by
    simp only [List.forall_mem_cons]
    exact ⟨.inl rfl, .inr (by simp), .inr (by simp), List.forall_mem_nil _⟩
  have hvector : ∀ item ∈ [leaf (.char '('), leaf (.string "a\"\n"),
      leaf (.int (-9223372036854775808))], item.Readable := by
    simp only [List.forall_mem_cons]
    exact ⟨.leaf (.char rfl), .leaf (.string hplain), .leaf (.int rfl), List.forall_mem_nil _⟩
  have hform : form.Readable := by
    refine .group ?_
    simp only [List.forall_mem_cons]
    exact ⟨.group hvector, .leaf (.keyword hatom), .group (List.forall_mem_nil _),
      List.forall_mem_nil _⟩
  exact ⟨hform, rfl, readOne_text hform⟩

end Interop
