import Interop.Proofs.Form.Inside
import Interop.Proofs.Form.LineBreak
import Interop.Proofs.Form.RoundTrip
import Interop.Proofs.Token.Stretch

/-! The text of a form. The tokens that a form was read from follow each other in the source, so its span
covers the piece that they take; the items of a group keep to the text between its delimiters. The piece
by itself has the same tokens, and they read as the same form. -/

namespace Interop

open Form (piecesList)

def Piece.span : Piece → Span
  | .opening _ span => span
  | .closing _ span => span
  | .leaf _ span => span

namespace Form

/-! ## Pieces of inner forms -/

theorem piecesList_eq_flatMap (forms : List Form) : piecesList forms = forms.flatMap pieces := by
  induction forms with
  | nil => rfl
  | cons form forms ih => rw [piecesList, ih, List.flatMap_cons]

theorem infix_piecesList {form : Form} {forms : List Form} (h : form ∈ forms) :
    form.pieces <:+: piecesList forms := by
  obtain ⟨before, after, rfl⟩ := List.append_of_mem h
  refine ⟨piecesList before, piecesList after, ?_⟩
  rw [piecesList_append, piecesList, List.append_assoc]

/-- What is inside a form is a part of it. -/
theorem Inside.infix_pieces {inner form : Form} (h : inner.Inside form) :
    inner.pieces <:+: form.pieces := by
  induction h with
  | self => exact List.infix_refl _
  | @item delimiter items span form hmem _ ih =>
    have hitems : piecesList items <:+: pieces (.group delimiter items span) :=
      ⟨[.opening delimiter span.firstByte], [.closing delimiter span.lastByte], rfl⟩
    exact (ih.trans (infix_piecesList hmem)).trans hitems

/-- The first and the last piece of a form are where it begins and ends. -/
theorem exists_pieces_at (form : Form) :
    ∃ first ∈ form.pieces, ∃ last ∈ form.pieces,
      first.span.start = form.span.start ∧ last.span.stop = form.span.stop := by
  cases form with
  | leaf datum span => exact ⟨_, .head _, _, .head _, rfl, rfl⟩
  | group delimiter items span =>
    refine ⟨_, .head _, .closing delimiter span.lastByte, ?_, rfl, rfl⟩
    simp [pieces]

/-! ## Order -/

/-- Whether pieces stand one behind the other. -/
def InOrder (pieces : List Piece) : Prop :=
  pieces.Pairwise fun piece later => piece.span.stop ≤ later.span.start

/-- Forms in order are as far apart as their pieces. -/
theorem pairwise_of_inOrder {forms : List Form} (h : InOrder (piecesList forms)) :
    forms.Pairwise fun form later => form.span.stop ≤ later.span.start := by
  rw [InOrder, piecesList_eq_flatMap, List.pairwise_flatMap] at h
  refine h.2.imp fun {form later} hapart => ?_
  obtain ⟨-, -, last, hlast, -, hstop⟩ := form.exists_pieces_at
  obtain ⟨first, hfirst, -, -, hstart, -⟩ := later.exists_pieces_at
  rw [← hstop, ← hstart]
  exact hapart last hlast first hfirst

/-- The items of a group begin behind its first byte and end before its last one. -/
theorem between_of_inOrder {delimiter : Delimiter} {items : List Form} {span : Span}
    (h : InOrder (pieces (.group delimiter items span))) {item : Form} (hitem : item ∈ items) :
    span.start + 1 ≤ item.span.start ∧ item.span.stop ≤ span.stop - 1 := by
  obtain ⟨first, hfirst, last, hlast, hstart, hstop⟩ := item.exists_pieces_at
  have hmem : ∀ piece ∈ item.pieces, piece ∈ piecesList items := fun piece hpiece =>
    (infix_piecesList hitem).subset hpiece
  obtain ⟨hopening, hrest⟩ := List.pairwise_cons.mp h
  obtain ⟨-, -, hclosing⟩ := List.pairwise_append.mp hrest
  rw [← hstart, ← hstop]
  exact ⟨hopening first (List.mem_append_left _ (hmem first hfirst)),
    hclosing last (hmem last hlast) _ (.head _)⟩

end Form

/-! ## Tokens of a form -/

theorem Token.piece?_eq_some {token : Token} {piece : Piece} (h : token.piece? = some piece) :
    piece.span = token.span ∧
      match piece with
      | .opening delimiter _ => token.kind = .opening delimiter
      | .closing delimiter _ => token.kind = .closing delimiter
      | .leaf datum _ => ∃ kind, token.kind = .leaf kind ∧ kind.datum token.text = .ok datum := by
  unfold piece? at h
  cases hkind : token.kind with
  | opening delimiter =>
    simp only [hkind, Option.some.injEq] at h
    subst h
    exact ⟨rfl, rfl⟩
  | closing delimiter =>
    simp only [hkind, Option.some.injEq] at h
    subst h
    exact ⟨rfl, rfl⟩
  | leaf kind =>
    simp only [hkind] at h
    cases hdatum : kind.datum token.text with
    | error fault =>
      rw [hdatum] at h
      cases h
    | ok datum =>
      rw [hdatum] at h
      cases h
      exact ⟨rfl, kind, rfl, hdatum⟩

/-- Whether these are the tokens of these pieces. -/
def TokensOf (tokens : List Token) (pieces : List Piece) : Prop :=
  tokens.map Token.piece? = pieces.map some

namespace TokensOf

variable {tokens : List Token} {pieces : List Piece}

theorem map_span (h : TokensOf tokens pieces) :
    pieces.map Piece.span = tokens.map Token.span := by
  induction pieces generalizing tokens with
  | nil => rw [List.map_eq_nil_iff.mp h]; rfl
  | cons piece pieces ih =>
    obtain ⟨token, later, rfl, hpiece, hlater⟩ := List.map_eq_cons_iff.mp h
    rw [List.map_cons, List.map_cons, ih hlater, (Token.piece?_eq_some hpiece).1]

theorem split {front back : List Piece} (h : TokensOf tokens (front ++ back)) :
    ∃ first later, tokens = first ++ later ∧ TokensOf first front ∧ TokensOf later back := by
  rw [TokensOf, List.map_append] at h
  exact List.map_eq_append_iff.mp h

theorem cons {piece : Piece} (h : TokensOf tokens (piece :: pieces)) :
    ∃ token later, tokens = token :: later ∧ token.piece? = some piece ∧ TokensOf later pieces :=
  List.map_eq_cons_iff.mp h

/-- The first and the last token of a form are where its span comes from, and for a group they are its
delimiters. -/
theorem ends {form : Form} (h : TokensOf tokens form.pieces) :
    ∃ first last, tokens.head? = some first ∧ tokens.getLast? = some last ∧
      first.span.through last.span = form.span ∧
      ∀ delimiter items span, form = .group delimiter items span →
        first.kind = .opening delimiter ∧ last.kind = .closing delimiter := by
  cases form with
  | leaf datum span =>
    obtain ⟨token, later, rfl, hpiece, hlater⟩ := h.cons
    obtain rfl := List.map_eq_nil_iff.mp hlater
    obtain ⟨rfl, -⟩ := Token.piece?_eq_some hpiece
    exact ⟨token, token, rfl, rfl, rfl, nofun⟩
  | group delimiter items span =>
    obtain ⟨opening, later, rfl, hopening, hlater⟩ := h.cons
    obtain ⟨inside, back, rfl, -, hback⟩ := hlater.split
    obtain ⟨closing, more, rfl, hclosing, hmore⟩ := hback.cons
    obtain rfl := List.map_eq_nil_iff.mp hmore
    obtain ⟨hfirst, hopening⟩ := Token.piece?_eq_some hopening
    obtain ⟨hlast, hclosing⟩ := Token.piece?_eq_some hclosing
    refine ⟨opening, closing, rfl, List.getLast?_concat (l := opening :: inside), ?_, ?_⟩
    · rw [← hfirst, ← hlast]
      rfl
    · rintro _ _ _ ⟨⟩
      exact ⟨hopening, hclosing⟩

end TokensOf

mutual

/-- Reading on at the tokens of a form, the form comes next. -/
theorem resume_tokens {atEnd : Span} : (form : Form) → ∀ {tokens : List Token},
    TokensOf tokens form.pieces → ∀ groups items,
    resume atEnd groups (tokens.map .ok ++ items) = resumeWith atEnd form groups items
  | .leaf _ _, _, h, _, _ => by
    obtain ⟨token, later, rfl, hpiece, hlater⟩ := h.cons
    obtain rfl := List.map_eq_nil_iff.mp hlater
    obtain ⟨rfl, kind, hkind, hdatum⟩ := Token.piece?_eq_some hpiece
    exact resume_leaf hkind hdatum
  | .group delimiter forms span, _, h, groups, items => by
    obtain ⟨opening, later, rfl, hopening, hlater⟩ := h.cons
    obtain ⟨inside, back, rfl, hinside, hback⟩ := hlater.split
    obtain ⟨closing, more, rfl, hclosing, hmore⟩ := hback.cons
    obtain rfl := List.map_eq_nil_iff.mp hmore
    obtain ⟨hfirst, hopening⟩ := Token.piece?_eq_some hopening
    obtain ⟨hlast, hclosing⟩ := Token.piece?_eq_some hclosing
    have hclosed : (OpenGroup.mk delimiter opening.span (forms.reverse ++ [])).close closing.span =
        .group delimiter forms span := by
      rw [← hfirst, ← hlast, List.append_nil, OpenGroup.close, List.reverse_reverse]
      rfl
    calc resume atEnd groups ((opening :: (inside ++ [closing])).map .ok ++ items)
      _ = resume atEnd ({ delimiter, span := opening.span } :: groups)
            (inside.map .ok ++ .ok closing :: items) := by
          rw [List.map_cons, List.cons_append, resume_opening hopening, List.map_append,
            List.append_assoc]
          rfl
      _ = resumeWith atEnd (.group delimiter forms span) groups items := by
          rw [resume_tokensList forms hinside, ← hclosed]
          exact resume_closing hclosing

/-- Reading on inside a group at the tokens of some forms, the group gets these forms. -/
theorem resume_tokensList {atEnd : Span} : (forms : List Form) → ∀ {tokens : List Token},
    TokensOf tokens (piecesList forms) → ∀ inner outer items,
    resume atEnd (inner :: outer) (tokens.map .ok ++ items) =
      resume atEnd ({ inner with items := forms.reverse ++ inner.items } :: outer) items
  | [], _, h, _, _, _ => by
    obtain rfl := List.map_eq_nil_iff.mp h
    rfl
  | form :: forms, _, h, _, _, _ => by
    obtain ⟨first, later, rfl, hfirst, hlater⟩ := h.split
    rw [List.map_append, List.append_assoc, resume_tokens form hfirst, resumeWith,
      resume_tokensList forms hlater]
    simp [OpenGroup.add]

end

/-- The tokens of a form read as the form. -/
theorem readForms_tokens {atEnd : Span} {form : Form} {tokens : List Token}
    (h : TokensOf tokens form.pieces) : readForms atEnd (tokens.map .ok) = .ok [form] := by
  have hread : resume atEnd [] (tokens.map .ok ++ []) = resumeWith atEnd form [] [] :=
    resume_tokens form h [] []
  rw [List.append_nil, resumeWith, resume_nil_nil] at hread
  exact hread

/-- A text that has the tokens of a form reads as the form, but for its spans. -/
theorem readOne_of_spells {form : Form} {tokens : List Token} {source : String}
    (htokens : TokensOf tokens form.pieces)
    (hspells : Spells source.toList (tokens.map Token.lexeme)) :
    ∃ read, readOne source = .ok read ∧ read.withoutSpans = form.withoutSpans := by
  have hbare := @readForms_mapSpans (fun _ => {}) {} (fun _ _ => rfl) (tokens.map .ok)
  have hmap := @readForms_mapSpans (fun _ => {}) (endSpan source) (fun _ _ => rfl)
    (tokenize source)
  have hsame : (tokens.map .ok).map TokenResult.lexeme? = (tokens.map Token.lexeme).map some := by
    rw [List.map_map, List.map_map]
    rfl
  rw [map_mapSpan_eq_unplaced hsame, readForms_tokens htokens] at hbare
  rw [map_mapSpan_eq_unplaced hspells.tokenize, hbare] at hmap
  cases hread : readForms (endSpan source) (tokenize source) with
  | error e =>
    rw [hread] at hmap
    cases hmap
  | ok forms =>
    rw [hread] at hmap
    obtain ⟨read, rfl, hsame⟩ := List.map_eq_singleton_iff.mp (Except.ok.inj hmap).symm
    exact ⟨read, readOne_eq_ok_iff.mpr hread, hsame⟩

/-! ## Source texts -/

section

variable {source : String} {forms : List Form} {top form : Form}

theorem exists_tokensOf (h : readAll source = .ok forms) :
    ∃ tokens : List Token, tokenize source = tokens.map .ok ∧
      TokensOf tokens (piecesList forms) := by
  obtain ⟨tokens, htokens, -⟩ :=
    TokenResult.noOffence_iff_nestedWithin.mp (readAll_isOk_iff.mp ⟨forms, h⟩)
  have hpieces := pieces_of_readAll h
  rw [htokens, List.map_map] at hpieces
  exact ⟨tokens, htokens, hpieces⟩

theorem inOrder_of_readAll (h : readAll source = .ok forms) : Form.InOrder (piecesList forms) := by
  obtain ⟨tokens, htokens, hpieces⟩ := exists_tokensOf h
  have horder : (tokenize source).Pairwise fun item later => item.span.stop ≤ later.span.start :=
    Cursor.tokens_pairwise _ _
  rw [htokens, List.pairwise_map] at horder
  have hspans : (tokens.map Token.span).Pairwise fun span later => span.stop ≤ later.start :=
    List.pairwise_map.mpr horder
  rw [← hpieces.map_span, List.pairwise_map] at hspans
  exact hspans

/-- The tokens of a form take a piece of the source. -/
theorem exists_stretch_of_inside (h : readAll source = .ok forms) (htop : top ∈ forms)
    (hform : form.Inside top) :
    ∃ (cursor : Cursor) (tokens : List Token) (gap piece after : List Char),
      cursor.StandsIn source.toList ∧ TokensOf tokens form.pieces ∧
      Stretch (LineIndex.ofText source.toList) cursor tokens gap piece after := by
  obtain ⟨all, hall, hpieces⟩ := exists_tokensOf h
  obtain ⟨front, back, hinfix⟩ := hform.infix_pieces.trans (Form.infix_piecesList htop)
  rw [← hinfix] at hpieces
  obtain ⟨mid, later, rfl, hmid, -⟩ := hpieces.split
  obtain ⟨earlier, tokens, rfl, -, htokens⟩ := hmid.split
  obtain ⟨first, -, hfirst, -⟩ := htokens.ends
  have hne : tokens ≠ [] := by
    rintro rfl
    cases hfirst
  rw [List.map_append, List.map_append, List.append_assoc] at hall
  obtain ⟨cursor, hcursor, hnext⟩ := (Cursor.standsIn_ofText _).exists_of_tokens_append hall
  obtain ⟨gap, piece, after, hstretch⟩ := Cursor.exists_stretch hne hnext
  exact ⟨cursor, tokens, gap, piece, after, hcursor, htokens, hstretch⟩

/-- The span of a form covers a piece of the source. It ends as its last token does, so not in a
space. -/
theorem exists_piece_of_inside (h : readAll source = .ok forms) (htop : top ∈ forms)
    (hform : form.Inside top) :
    ∃ piece, form.span.Covers source.toList piece ∧ piece ≠ [] ∧
      ∀ c ∈ piece.getLast?, isSpace c = false := by
  obtain ⟨cursor, tokens, gap, piece, after, hcursor, htokens, hstretch⟩ :=
    exists_stretch_of_inside h htop hform
  obtain ⟨first, last, hfirst, hlast, hspan, -⟩ := htokens.ends
  have hcovers := hstretch.covers hcursor hfirst hlast
  rw [hspan] at hcovers
  refine ⟨piece, hcovers, hstretch.nonempty, ?_⟩
  obtain ⟨behind, htoken⟩ := hstretch.isToken last (List.mem_of_mem_getLast? hlast)
  obtain ⟨front, hfront⟩ := (hstretch.last last hlast).1
  rw [← hfront, List.getLast?_append_of_ne_nil _ htoken.ne_nil]
  exact htoken.not_isSpace_getLast

/-- The items of a group stand between its delimiters, one behind the other. -/
theorem items_between {delimiter : Delimiter} {items : List Form} {span : Span}
    (h : readAll source = .ok forms) (htop : top ∈ forms)
    (hform : (Form.group delimiter items span).Inside top) :
    (∀ item ∈ items, span.start + byteLength delimiter.opening.toList ≤ item.span.start ∧
      item.span.stop + byteLength delimiter.closing.toList ≤ span.stop) ∧
    items.Pairwise fun item later => item.span.stop ≤ later.span.start := by
  have hinfix := hform.infix_pieces.trans (Form.infix_piecesList htop)
  have horder : Form.InOrder (Form.pieces (.group delimiter items span)) :=
    (inOrder_of_readAll h).sublist hinfix.sublist
  have hopening : byteLength delimiter.opening.toList = 1 := by cases delimiter <;> rfl
  have hclosing : byteLength delimiter.closing.toList = 1 := by cases delimiter <;> rfl
  refine ⟨fun item hitem => ?_, ?_⟩
  · obtain ⟨hstart, hstop⟩ := Form.between_of_inOrder horder hitem
    obtain ⟨piece, hcovers, hne, -⟩ :=
      exists_piece_of_inside h htop ((Form.Inside.of_mem hitem).trans hform)
    have hpos := hcovers.1.start_lt hne
    rw [hopening, hclosing]
    omega
  · obtain ⟨-, hrest⟩ := List.pairwise_cons.mp horder
    exact Form.pairwise_of_inOrder (List.pairwise_append.mp hrest).1

/-- **A span is a text.** The span of a form that was read, on whatever level, covers a piece of the
source that is not empty. The items of a group stand between its delimiters, one behind the other. And
the piece by itself reads as the form, but for its spans. -/
theorem readAll_spans (h : readAll source = .ok forms) (htop : top ∈ forms)
    (hform : form.Inside top) :
    ∃ piece, form.span.Covers source.toList piece ∧
      form.span.start < form.span.stop ∧ form.span.stop ≤ source.utf8ByteSize ∧
      (∀ delimiter items span, form = .group delimiter items span →
        delimiter.opening.toList <+: piece ∧ delimiter.closing.toList <:+ piece ∧
        (∀ item ∈ items, span.start + byteLength delimiter.opening.toList ≤ item.span.start ∧
          item.span.stop + byteLength delimiter.closing.toList ≤ span.stop) ∧
        items.Pairwise fun item later => item.span.stop ≤ later.span.start) ∧
      ∃ read, readOne (String.ofList piece) = .ok read ∧
        read.withoutSpans = form.withoutSpans := by
  obtain ⟨cursor, tokens, gap, piece, after, hcursor, htokens, hstretch⟩ :=
    exists_stretch_of_inside h htop hform
  obtain ⟨first, last, hfirst, hlast, hspan, hends⟩ := htokens.ends
  have hcovers := hstretch.covers hcursor hfirst hlast
  rw [hspan] at hcovers
  have hpos := hcovers.1.start_lt hstretch.nonempty
  have hstop := hcovers.1.stop_le
  rw [byteLength_toList] at hstop
  refine ⟨piece, hcovers, hpos, hstop, ?_, ?_⟩
  · rintro delimiter items span rfl
    obtain ⟨hopening, hclosing⟩ := hends delimiter items span rfl
    obtain ⟨_, hopens⟩ := hstretch.isToken first (List.mem_of_mem_head? hfirst)
    obtain ⟨_, hcloses⟩ := hstretch.isToken last (List.mem_of_mem_getLast? hlast)
    rw [hopening] at hopens
    rw [hclosing] at hcloses
    have hfront := (hstretch.first first hfirst).1
    have hsuffix := (hstretch.last last hlast).1
    rw [hopens.text_eq nofun] at hfront
    rw [hcloses.text_eq nofun] at hsuffix
    exact ⟨hfront, hsuffix, items_between h htop hform⟩
  · refine readOne_of_spells htokens ?_
    rw [String.toList_ofList]
    exact hstretch.spells

end

/-- A vector with delimiters inside a character, a string and a name, in a list that goes over a line
break. -/
theorem readAll_spans_vector :
    let source := "a (é [\\( \")]\" |)|]\n)"
    let place : Span := { start := 6, stop := 19, first := ⟨1, 7⟩, last := ⟨1, 20⟩ }
    ∃ (forms : List Form) (top form : Form),
      readAll source = .ok forms ∧ top ∈ forms ∧ form.Inside top ∧ form.span = place ∧
      ∃ piece, form.span.Covers source.toList piece ∧
        ∃ read, readOne (String.ofList piece) = .ok read ∧
          read.withoutSpans = form.withoutSpans := by
  intro source place
  have hread : ((readAll source).toOption.bind fun forms => forms[1]?.bind fun top =>
      top.list?.bind fun items => items[1]?.map Form.span) = some place := by
    decide +kernel
  simp only [Option.bind_eq_some_iff, Option.map_eq_some_iff] at hread
  obtain ⟨forms, hforms, top, htop, items, hitems, form, hform, hspan⟩ := hread
  have hall : readAll source = .ok forms := by
    cases hall : readAll source with
    | error e =>
      rw [hall] at hforms
      cases hforms
    | ok read =>
      rw [hall] at hforms
      cases hforms
      rfl
  have htop : top ∈ forms := List.mem_of_getElem? htop
  have hinside : form.Inside top := .of_list? hitems (List.mem_of_getElem? hform)
  obtain ⟨piece, hcovers, -, -, -, hagain⟩ := readAll_spans hall htop hinside
  exact ⟨forms, top, form, hall, htop, hinside, hspan, piece, hcovers, hagain⟩

end Interop
