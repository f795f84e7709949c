import Interop.Proofs.Except
import Interop.Proofs.Form.Resumption

/-! What reading accepts, and where it stops. One item either ends the reading by its offence or
adds its piece to the forms that are finished and the groups that are open; a whole text is read
exactly when its tokens are nested and every leaf has a datum. -/

namespace Interop

open Form (piecesList)
open TokenResult (IsFirstOffence NoOffence openGroups openAfter)

/-- The pieces that open groups hold so far, outermost first. -/
def openPieces : List OpenGroup → List Piece
  | [] => []
  | group :: outer =>
    openPieces outer ++ .opening group.delimiter group.span :: piecesList group.items.reverse

variable {groups : List OpenGroup} {items : List TokenResult}

theorem openPieces_add (group : OpenGroup) (outer : List OpenGroup) (form : Form) :
    openPieces (group.add form :: outer) = openPieces (group :: outer) ++ form.pieces := by
  simp [openPieces, OpenGroup.add]

/-- The pieces of a group that is closed are those it held and the closing delimiter. -/
theorem pieces_close {group : OpenGroup} {outer : List OpenGroup} {closing : Span}
    (hgroup : group.span.IsByte) (hclosing : closing.IsByte) :
    openPieces outer ++ (group.close closing).pieces =
      openPieces (group :: outer) ++ [.closing group.delimiter closing] := by
  have hfirst : (group.span.through closing).firstByte = group.span := hgroup
  have hlast : (group.span.through closing).lastByte = closing := hclosing.lastByte_eq
  simp [OpenGroup.close, Form.pieces, openPieces, hfirst, hlast]

/-- A form that has ended goes to the innermost open group, or is finished when there is none. -/
theorem resumeWith_eq (form : Form) (hgroups : ∀ group ∈ groups, group.span.IsByte) :
    ∃ next finished,
      (∀ atEnd items, resumeWith atEnd form groups items =
        (resume atEnd next items).map (finished ++ ·)) ∧
      next.map (·.delimiter) = groups.map (·.delimiter) ∧
      (∀ group ∈ next, group.span.IsByte) ∧
      piecesList finished ++ openPieces next = openPieces groups ++ form.pieces := by
  cases groups with
  | nil => exact ⟨[], [form], fun _ _ => rfl, rfl, hgroups, by simp [openPieces]⟩
  | cons group outer =>
    refine ⟨group.add form :: outer, [], ?_, rfl, ?_, openPieces_add group outer form⟩
    · intro atEnd items
      rw [resumeWith]
      cases resume atEnd (group.add form :: outer) items <;> rfl
    · exact List.forall_mem_cons.mpr (List.forall_mem_cons.mp hgroups)

/-- **One step.** An item that does not offend is a piece. It comes after the pieces of the forms
that are finished and of the groups that are open, and reading goes on with the groups that are
open after it. -/
theorem resume_step {item : TokenResult}
    (h : TokenResult.offence? (groups.map (·.delimiter)) item = none)
    (hitem : TokenResult.InPlace item) (hgroups : ∀ group ∈ groups, group.span.IsByte) :
    ∃ next finished piece,
      (∀ atEnd items, resume atEnd groups (item :: items) =
        (resume atEnd next items).map (finished ++ ·)) ∧
      next.map (·.delimiter) = openAfter (groups.map (·.delimiter)) item ∧
      (∀ group ∈ next, group.span.IsByte) ∧
      TokenResult.piece? item = some piece ∧
      piecesList finished ++ openPieces next = openPieces groups ++ [piece] := by
  cases item with
  | error e => cases h
  | ok token =>
    cases hkind : token.kind with
    | opening delimiter =>
      have hbyte : token.span.IsByte := by simpa [hkind] using hitem token rfl
      refine ⟨{ delimiter, span := token.span } :: groups, [], .opening delimiter token.span,
        ?_, ?_, List.forall_mem_cons.mpr ⟨hbyte, hgroups⟩, ?_, ?_⟩
      · intro atEnd items
        rw [resume_opening hkind]
        cases resume atEnd ({ delimiter, span := token.span } :: groups) items <;> rfl
      · simp [openAfter, hkind]
      · simp [TokenResult.piece?, Token.piece?, hkind]
      · simp [openPieces, piecesList]
    | closing delimiter =>
      have hbyte : token.span.IsByte := by simpa [hkind] using hitem token rfl
      cases groups with
      | nil => simp [TokenResult.offence?, hkind] at h
      | cons group outer =>
        obtain rfl : group.delimiter = delimiter := by
          simpa [TokenResult.offence?, hkind] using h
        obtain ⟨hgroup, houter⟩ := List.forall_mem_cons.mp hgroups
        obtain ⟨next, finished, hnext, hopen, hbytes, hpieces⟩ :=
          resumeWith_eq (group.close token.span) houter
        refine ⟨next, finished, .closing group.delimiter token.span, ?_, ?_, hbytes, ?_, ?_⟩
        · intro atEnd items
          rw [resume_closing hkind, hnext]
        · simp [openAfter, hkind, hopen]
        · simp [TokenResult.piece?, Token.piece?, hkind]
        · rw [hpieces, pieces_close hgroup hbyte]
    | leaf kind =>
      cases hdatum : kind.datum token.text with
      | error fault => simp [TokenResult.offence?, hkind, hdatum] at h
      | ok datum =>
        obtain ⟨next, finished, hnext, hopen, hbytes, hpieces⟩ :=
          resumeWith_eq (.leaf datum token.span) hgroups
        refine ⟨next, finished, .leaf datum token.span, ?_, ?_, hbytes, ?_, ?_⟩
        · intro atEnd items
          rw [resume_leaf hkind hdatum, hnext]
        · simp [openAfter, hkind, hopen]
        · simp [TokenResult.piece?, Token.piece?, hkind, hdatum, Except.toOption]
        · rw [hpieces, Form.pieces]

/-- **A whole run.** The reading ends with the first offence if there is one, else because a group
is left open, and else with forms whose pieces are those of the groups that were open in front and
then those of the items. -/
theorem resume_cases (atEnd : Span) {groups : List OpenGroup} (items : List TokenResult)
    (hgroups : ∀ group ∈ groups, group.span.IsByte)
    (hitems : ∀ item ∈ items, TokenResult.InPlace item) :
    (∃ e, IsFirstOffence (groups.map (·.delimiter)) items e ∧
        resume atEnd groups items = .error e) ∨
      NoOffence (groups.map (·.delimiter)) items ∧
        ((∃ delimiter outer, openGroups (groups.map (·.delimiter)) items = delimiter :: outer ∧
            resume atEnd groups items =
              .error { fault := .unclosed delimiter, span := atEnd }) ∨
          openGroups (groups.map (·.delimiter)) items = [] ∧
            ∃ forms pieces, resume atEnd groups items = .ok forms ∧
              items.map TokenResult.piece? = pieces.map some ∧
              piecesList forms = openPieces groups ++ pieces) := by
  induction items generalizing groups with
  | nil =>
    refine .inr ⟨TokenResult.noOffence_nil, ?_⟩
    cases groups with
    | nil => exact .inr ⟨rfl, [], [], resume_nil_nil, rfl, rfl⟩
    | cons group outer => exact .inl ⟨group.delimiter, _, rfl, resume_cons_nil⟩
  | cons item items ih =>
    obtain ⟨hitem, hitems⟩ := List.forall_mem_cons.mp hitems
    rw [TokenResult.noOffence_cons, TokenResult.openGroups_cons]
    simp only [TokenResult.isFirstOffence_cons]
    cases hfirst : TokenResult.offence? (groups.map (·.delimiter)) item with
    | some e => exact .inl ⟨e, .inl rfl, resume_offence hfirst⟩
    | none =>
      obtain ⟨next, finished, piece, hnext, hopen, hbytes, hpiece, hpieces⟩ :=
        resume_step hfirst hitem hgroups
      rw [hnext, ← hopen]
      rcases ih hbytes hitems with
        ⟨e, hoffence, hrun⟩ | ⟨hnone, ⟨delimiter, outer, hleft, hrun⟩ |
          ⟨hleft, forms, pieces, hrun, hmap, hforms⟩⟩
      · exact .inl ⟨e, .inr ⟨rfl, hoffence⟩, by rw [hrun]; rfl⟩
      · exact .inr ⟨⟨rfl, hnone⟩, .inl ⟨delimiter, outer, hleft, by rw [hrun]; rfl⟩⟩
      · refine .inr ⟨⟨rfl, hnone⟩, .inr ⟨hleft, finished ++ forms, piece :: pieces,
          by rw [hrun]; rfl, by simp [hpiece, hmap], ?_⟩⟩
        rw [Form.piecesList_append, hforms, ← List.append_assoc, hpieces, List.append_assoc]
        rfl

/-! ## Source texts -/

variable {source : String}

theorem readAll_cases (source : String) :
    (∃ e, IsFirstOffence [] (tokenize source) e ∧ readAll source = .error e) ∨
      NoOffence [] (tokenize source) ∧
        ((∃ delimiter outer, openGroups [] (tokenize source) = delimiter :: outer ∧
            readAll source = .error { fault := .unclosed delimiter, span := endSpan source }) ∨
          openGroups [] (tokenize source) = [] ∧
            ∃ forms, readAll source = .ok forms ∧
              (tokenize source).map TokenResult.piece? = (piecesList forms).map some) := by
  have hgroups : ∀ group ∈ ([] : List OpenGroup), group.span.IsByte := nofun
  have hitems : ∀ item ∈ tokenize source, TokenResult.InPlace item := fun item =>
    TokenResult.inPlace_of_mem_tokenize
  rcases resume_cases (endSpan source) (tokenize source) hgroups hitems with
    ⟨e, hfirst, hrun⟩ | ⟨hnone, ⟨delimiter, outer, hleft, hrun⟩ |
      ⟨hleft, forms, pieces, hrun, hmap, rfl⟩⟩
  · exact .inl ⟨e, hfirst, hrun⟩
  · exact .inr ⟨hnone, .inl ⟨delimiter, outer, hleft, hrun⟩⟩
  · exact .inr ⟨hnone, .inr ⟨hleft, forms, hrun, hmap⟩⟩

theorem readAll_isOk_iff :
    (∃ forms, readAll source = .ok forms) ↔
      NoOffence [] (tokenize source) ∧ openGroups [] (tokenize source) = [] := by
  rcases readAll_cases source with ⟨e, hfirst, hread⟩ | ⟨hnone, ⟨delimiter, outer, hleft, hread⟩ |
      ⟨hleft, forms, hread, -⟩⟩
  · simp [hread, hfirst.not_noOffence]
  · simp [hread, hleft]
  · simp [hread, hnone, hleft]

theorem pieces_of_readAll {forms : List Form} (h : readAll source = .ok forms) :
    (tokenize source).map TokenResult.piece? = (piecesList forms).map some := by
  rcases readAll_cases source with ⟨e, -, hread⟩ | ⟨-, ⟨delimiter, outer, -, hread⟩ |
      ⟨-, read, hread, hpieces⟩⟩ <;> rw [hread] at h <;> cases h
  exact hpieces

theorem readAll_eq_error_iff {e : ReadError} :
    readAll source = .error e ↔
      IsFirstOffence [] (tokenize source) e ∨
        NoOffence [] (tokenize source) ∧ ∃ delimiter outer,
          openGroups [] (tokenize source) = delimiter :: outer ∧
            e = { fault := .unclosed delimiter, span := endSpan source } := by
  constructor
  · intro h
    rcases readAll_cases source with ⟨e', hfirst, hread⟩ |
        ⟨hnone, ⟨delimiter, outer, hleft, hread⟩ | ⟨-, forms, hread, -⟩⟩ <;>
      rw [hread] at h <;> cases h
    · exact .inl hfirst
    · exact .inr ⟨hnone, delimiter, outer, hleft, rfl⟩
  · intro h
    rcases readAll_cases source with ⟨e', hfirst, hread⟩ |
        ⟨hnone, ⟨delimiter, outer, hleft, hread⟩ | ⟨hleft, forms, hread, -⟩⟩
    · rcases h with h | ⟨h, -⟩
      · rw [hread, hfirst.unique h]
      · exact absurd h hfirst.not_noOffence
    · rcases h with h | ⟨-, delimiter', outer', hleft', rfl⟩
      · exact absurd hnone h.not_noOffence
      · cases hleft.symm.trans hleft'
        exact hread
    · rcases h with h | ⟨-, delimiter', outer', hleft', -⟩
      · exact absurd hnone h.not_noOffence
      · cases hleft.symm.trans hleft'

/-- Reading a text as one form is reading a list of one form. -/
theorem readOne_eq_ok_iff {source : String} {form : Form} :
    readOne source = .ok form ↔ readAll source = .ok [form] := by
  unfold readOne readAll
  rw [readForms_eq]
  rcases hfirst : readNext? (endSpan source) (tokenize source) with _ | ⟨e | first, rest⟩
  · simp [hfirst]
  · simp [hfirst]
  · rcases hnext : readNext? (endSpan source) rest with _ | ⟨e | extra, after⟩
    · simp [hfirst, hnext, @readForms_eq _ rest, Except.map]
    · simp [hfirst, hnext, @readForms_eq _ rest, Except.map]
    · cases hafter : readForms (endSpan source) after <;>
        simp [hfirst, hnext, hafter, @readForms_eq _ rest, Except.map]

/-- **What reading accepts.** A text is read exactly when it has tokens only, they are nested, and
every leaf has a datum; the pieces of the forms are then the tokens, one for one and in their
places. Otherwise the error is that of the first item that offends, or without one that of the
innermost group left open. No leaf does anything but mean a datum or offend: the one negation that
leaves the range of integers wraps around. -/
theorem readAll_iff_nested (source : String) :
    ((∃ forms, readAll source = .ok forms) ↔
      ∃ tokens : List Token, tokenize source = tokens.map .ok ∧ Nested (tokens.map (·.kind)) ∧
        ∀ token ∈ tokens, token.piece?.isSome) ∧
    (∀ forms, readAll source = .ok forms →
      (tokenize source).map TokenResult.piece? = (piecesList forms).map some) ∧
    (∀ e, readAll source = .error e ↔
      IsFirstOffence [] (tokenize source) e ∨
        NoOffence [] (tokenize source) ∧ ∃ delimiter outer,
          openGroups [] (tokenize source) = delimiter :: outer ∧
            e = { fault := .unclosed delimiter, span := endSpan source }) ∧
    ∀ form, readOne source = .ok form ↔ readAll source = .ok [form] := by
  refine ⟨?_, fun forms => pieces_of_readAll, fun e => readAll_eq_error_iff,
    fun form => readOne_eq_ok_iff⟩
  rw [readAll_isOk_iff, TokenResult.noOffence_iff_nestedWithin]
  rfl

/-- `(a ["b"])` -/
theorem readAll_iff_nested_mixed :
    ∃ forms, readAll "(a [\"b\"])" = .ok forms ∧
      (tokenize "(a [\"b\"])").map TokenResult.piece? = (piecesList forms).map some := by
  have hread : ∃ forms, readAll "(a [\"b\"])" = .ok forms :=
    except_isOk_iff.mp (by decide +kernel)
  obtain ⟨forms, hforms⟩ := hread
  exact ⟨forms, hforms, (readAll_iff_nested "(a [\"b\"])").2.1 forms hforms⟩

end Interop
