import Interop.Form.Reader
import Interop.Proofs.Form.Nesting

/-! Reading all forms, told from its middle. Between two tokens all that matters is which groups are
open and what they hold so far; reading on from there is one pass over the tokens that are left,
with one equation for each thing that can come next. -/

namespace Interop

variable {atEnd : Span} {group : OpenGroup} {groups outer : List OpenGroup} {form : Form}
  {items : List TokenResult} {token : Token}

theorem readForms_eq :
    readForms atEnd items =
      match readNext? atEnd items with
      | none => .ok []
      | some (.error e, _) => .error e
      | some (.ok form, rest) => (readForms atEnd rest).map (form :: ·) := by
  rw [readForms]
  split <;> simp_all

/-- What reading gives that goes on inside the open groups: the group that is read to its end, then
all forms after it. -/
def resume (atEnd : Span) (groups : List OpenGroup) (items : List TokenResult) :
    Except ReadError (List Form) :=
  match groups with
  | [] => readForms atEnd items
  | group :: outer =>
    match readWithin atEnd group outer items with
    | (.error e, _) => .error e
    | (.ok form, rest) => (readForms atEnd rest).map (form :: ·)

/-- What reading gives when a form has just ended inside the open groups. -/
def resumeWith (atEnd : Span) (form : Form) (groups : List OpenGroup)
    (items : List TokenResult) : Except ReadError (List Form) :=
  match groups with
  | [] => (resume atEnd [] items).map (form :: ·)
  | group :: outer => resume atEnd (group.add form :: outer) items

theorem resume_nil_nil : resume atEnd [] [] = .ok [] := by
  rw [resume, readForms_eq]
  rfl

theorem resume_cons_nil :
    resume atEnd (group :: outer) [] =
      .error { fault := .unclosed group.delimiter, span := atEnd } := rfl

theorem resume_opening {delimiter : Delimiter} (h : token.kind = .opening delimiter) :
    resume atEnd groups (.ok token :: items) =
      resume atEnd ({ delimiter, span := token.span } :: groups) items := by
  cases groups with
  | nil =>
    rw [resume, readForms_eq]
    simp only [resume, readNext?, h]
    rcases readWithin atEnd { delimiter, span := token.span } [] items with ⟨e | form, rest⟩ <;>
      rfl
  | cons group outer => simp only [resume, readWithin, h]

theorem resume_closing (h : token.kind = .closing group.delimiter) :
    resume atEnd (group :: outer) (.ok token :: items) =
      resumeWith atEnd (group.close token.span) outer items := by
  cases outer with
  | nil => simp only [resume, resumeWith, readWithin, h, if_true]
  | cons next outer => simp only [resume, resumeWith, readWithin, h, if_true]

theorem resume_leaf {kind : LeafKind} {datum : Datum} (h : token.kind = .leaf kind)
    (hdatum : kind.datum token.text = .ok datum) :
    resume atEnd groups (.ok token :: items) =
      resumeWith atEnd (.leaf datum token.span) groups items := by
  cases groups with
  | nil =>
    rw [resume, readForms_eq]
    simp only [resumeWith, resume, readNext?, h, hdatum]
  | cons group outer => simp only [resume, resumeWith, readWithin, h, hdatum]

/-- An item that offends ends the reading. -/
theorem resume_offence {item : TokenResult} {e : ReadError}
    (h : TokenResult.offence? (groups.map (·.delimiter)) item = some e) :
    resume atEnd groups (item :: items) = .error e := by
  cases item with
  | error e' =>
    cases h
    cases groups with
    | nil =>
      rw [resume, readForms_eq]
      rfl
    | cons group outer => rfl
  | ok token =>
    cases hkind : token.kind with
    | opening delimiter => simp [TokenResult.offence?, hkind] at h
    | closing delimiter =>
      cases groups with
      | nil =>
        simp only [TokenResult.offence?, hkind, List.map_nil] at h
        cases h
        rw [resume, readForms_eq]
        simp only [readNext?, hkind, readWithin.unexpected]
      | cons group outer =>
        simp only [TokenResult.offence?, hkind, List.map_cons, List.head?_cons] at h
        split at h
        · cases h
        · rename_i hother
          cases h
          have hne : delimiter ≠ group.delimiter := fun heq => hother (by rw [heq])
          simp only [resume, readWithin, hkind, hne, if_false, readWithin.unexpected]
    | leaf kind =>
      cases hdatum : kind.datum token.text with
      | ok datum => simp [TokenResult.offence?, hkind, hdatum] at h
      | error fault =>
        simp only [TokenResult.offence?, hkind, hdatum] at h
        cases h
        cases groups with
        | nil =>
          rw [resume, readForms_eq]
          simp only [readNext?, hkind, hdatum]
        | cons group outer => simp only [resume, readWithin, hkind, hdatum]

end Interop
