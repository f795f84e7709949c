import Interop.Proofs.Form.ErrorPlace
import Interop.Proofs.Text.Slice
import Interop.Proofs.Token.LineBreak
import Interop.Proofs.Token.Separation

/-! The parts of a text. Every reading step takes a gap of blanks and comments off the text and then a
piece, and the token or error that it gives stands where the piece does. So the items of a text and the
gaps around them make up the text, and nothing is read twice or passed over. Only an unclosed string may
show less of its piece, and that is the last one. -/

namespace Interop

/-- Blanks and comments in front of a text. A comment goes on to the next newline, or to the end of the
text when there is none. -/
inductive IsGap (rest : List Char) : List Char → Prop
  | nil : IsGap rest []
  | blank {c : Char} {gap : List Char} : isBlank c = true → IsGap rest gap → IsGap rest (c :: gap)
  | comment {body gap : List Char} : '\n' ∉ body → (∀ c ∈ (gap ++ rest).head?, c = '\n') →
      IsGap rest gap → IsGap rest (';' :: (body ++ gap))

/-- The inside of a comment, and the gap after it. -/
def IsCommentTail (rest tail : List Char) : Prop :=
  ∃ body gap, tail = body ++ gap ∧ '\n' ∉ body ∧ (∀ c ∈ (gap ++ rest).head?, c = '\n') ∧
    IsGap rest gap

theorem IsCommentTail.cons {rest tail : List Char} {c : Char} (hc : c ≠ '\n')
    (h : IsCommentTail rest tail) : IsCommentTail rest (c :: tail) := by
  obtain ⟨body, gap, rfl, hbody, hhead, hgap⟩ := h
  exact ⟨c :: body, gap, rfl, by simp [hbody, Ne.symm hc], hhead, hgap⟩

theorem IsGap.comment_of_tail {rest tail : List Char} (h : IsCommentTail rest tail) :
    IsGap rest (';' :: tail) := by
  obtain ⟨body, gap, rfl, hbody, hhead, hgap⟩ := h
  exact .comment hbody hhead hgap

namespace Cursor

/-- What is skipped is a gap, or inside a comment the rest of it and a gap. -/
theorem skipBlanks_go_gap (inComment : Bool) (offset : Nat) (text : List Char) :
    ∃ gap, text = gap ++ (skipBlanks.go inComment offset text).rest ∧
      (skipBlanks.go inComment offset text).offset = offset + byteLength gap ∧
      if inComment then IsCommentTail (skipBlanks.go inComment offset text).rest gap
      else IsGap (skipBlanks.go inComment offset text).rest gap := by
  fun_induction skipBlanks.go inComment offset text with
  | case1 inComment offset =>
    refine ⟨[], rfl, rfl, ?_⟩
    cases inComment with
    | true => exact ⟨[], [], rfl, by simp, by simp, .nil⟩
    | false => exact .nil
  | case2 offset c rest ih =>
    obtain ⟨gap, htext, hoffset, hgap⟩ := ih
    refine ⟨c :: gap, congrArg (c :: ·) htext, by rw [hoffset, byteLength_cons, Nat.add_assoc], ?_⟩
    by_cases hc : c = '\n'
    · subst hc
      exact ⟨[], '\n' :: gap, rfl, by simp, by simp, .blank rfl hgap⟩
    · rw [if_pos (by simpa using hc)] at hgap
      exact hgap.cons hc
  | case3 inComment offset c rest hcomment hblank ih =>
    obtain ⟨gap, htext, hoffset, hgap⟩ := ih
    refine ⟨c :: gap, congrArg (c :: ·) htext, by rw [hoffset, byteLength_cons, Nat.add_assoc], ?_⟩
    rw [if_neg hcomment]
    exact .blank hblank hgap
  | case4 inComment offset rest hcomment hblank ih =>
    obtain ⟨gap, htext, hoffset, hgap⟩ := ih
    refine ⟨';' :: gap, congrArg (';' :: ·) htext,
      by rw [hoffset, byteLength_cons, Nat.add_assoc], ?_⟩
    rw [if_neg hcomment]
    exact .comment_of_tail hgap
  | case5 inComment offset c rest hcomment hblank hsemicolon =>
    refine ⟨[], rfl, rfl, ?_⟩
    rw [if_neg hcomment]
    exact .nil

theorem skipBlanks_gap (cursor : Cursor) :
    ∃ gap, cursor.rest = gap ++ cursor.skipBlanks.rest ∧
      cursor.skipBlanks.offset = cursor.offset + byteLength gap ∧ IsGap cursor.skipBlanks.rest gap :=
  skipBlanks_go_gap false cursor.offset cursor.rest

end Cursor

/-! ## Pieces -/

namespace Lexeme

theorem lastEscape_le (offset : Nat) (text : List Char) :
    lastEscape offset text ≤ offset + byteLength text := by
  fun_induction lastEscape offset text with
  | case1 => exact Nat.zero_le _
  | case2 offset c rest ih =>
    have hpos := c.utf8Size_pos
    have hslash : '\\'.utf8Size = 1 := rfl
    simp only [byteLength_cons, hslash]
    omega
  | case3 offset =>
    have hslash : '\\'.utf8Size = 1 := rfl
    simp [hslash]
  | case4 offset c rest _ _ ih =>
    simp only [byteLength_cons]
    omega

/-- The part of a lexeme that is shown is not empty, and it is all of the text unless that is an
unclosed string. -/
theorem scan_extent (c : Char) (rest : List Char) :
    (scan c rest).1.extent = byteLength (scan c rest).1.text ∨
      0 < (scan c rest).1.extent ∧
        (scan c rest).1.extent ≤ byteLength (scan c rest).1.text ∧
        (scan c rest).1.kind = .error .unterminatedString := by
  fun_cases scan c rest with
  | case5 =>
    fun_cases quoted rest with
    | case1 => exact .inl rfl
    | case2 =>
      have hescape := lastEscape_le 1 rest
      have hquote : '"'.utf8Size = 1 := rfl
      refine .inr ⟨?_, ?_, rfl⟩
      · exact Nat.lt_of_lt_of_le Nat.one_pos (Nat.le_max_left _ _)
      · simp only [byteLength_cons, hquote]
        omega
  | case6 => fun_cases verbatim rest <;> exact .inl rfl
  | case7 => fun_cases character rest <;> exact .inl rfl
  | _ => exact .inl rfl

/-- Only the end of a text leaves a string unclosed. -/
theorem rest_of_unterminated {c : Char} {rest : List Char}
    (h : (scan c rest).1.kind = .error .unterminatedString) : (scan c rest).2 = [] := by
  revert h
  fun_cases scan c rest with
  | case5 =>
    fun_cases quoted rest with
    | case1 =>
      intro h
      cases h
    | case2 => exact fun _ => rfl
  | case6 =>
    fun_cases verbatim rest <;>
    · intro h
      cases h
  | case7 =>
    fun_cases character rest <;>
    · intro h
      cases h
  | _ =>
    intro h
    cases h

theorem eq_of_kind_ok {lexeme : Lexeme} {kind : TokenKind} (hkind : lexeme.kind = .ok kind)
    (hextent : lexeme.extent = byteLength lexeme.text) :
    lexeme = { kind := .ok kind, text := lexeme.text } := by
  rcases lexeme with ⟨kind', text, extent⟩
  exact congrArg₂ (Lexeme.mk · text ·) hkind hextent

/-- A lexeme that is a token is the token of its text, in front of what is left. -/
theorem isTokenBefore_scan {c : Char} {rest : List Char} {kind : TokenKind}
    (h : (scan c rest).1.kind = .ok kind) (hblank : isBlank c = false) (hsemicolon : c ≠ ';') :
    IsTokenBefore (scan c rest).2 kind (scan c rest).1.text := by
  have hlexeme := eq_of_kind_ok h (extent_of_kind_ok h)
  have happend := scan_append c rest
  cases htext : (scan c rest).1.text with
  | nil => exact absurd htext (scan_text_ne_nil c rest)
  | cons d cs =>
    rw [htext] at happend hlexeme
    obtain ⟨rfl, hrest⟩ := List.cons.inj happend
    refine ⟨d, cs, rfl, hblank, hsemicolon, ?_⟩
    rw [← hlexeme]
    exact congrArg (scan d) hrest

end Lexeme

/-! ## One step -/

def TokenResult.IsUnterminated (item : TokenResult) : Prop :=
  ∃ span, item = .error { fault := .unterminatedString, span }

namespace Cursor

/-- A step takes a gap off the text and then a piece; the item that it gives stands for the piece. -/
structure Takes (lines : LineIndex) (cursor after : Cursor) (gap piece : List Char)
    (item : TokenResult) : Prop where
  rest : cursor.rest = gap ++ (piece ++ after.rest)
  offset : after.offset = cursor.offset + byteLength gap + byteLength piece
  isGap : IsGap (piece ++ after.rest) gap
  span : item.span = lines.span (cursor.offset + byteLength gap) item.span.stop
  start_lt : item.span.start < item.span.stop
  stop_le : item.span.stop ≤ after.offset
  whole : ¬ item.IsUnterminated → item.span.stop = after.offset
  last : item.IsUnterminated → after.rest = []
  token : ∀ token, item = .ok token →
    token.text = piece ∧ Lexeme.IsTokenBefore after.rest token.kind piece

variable {lines : LineIndex} {cursor after : Cursor} {item : TokenResult}

theorem Takes.start {gap piece : List Char} (h : Takes lines cursor after gap piece item) :
    item.span.start = cursor.offset + byteLength gap := congrArg Span.start h.span

/-- The piece stands in the text from the start of the item up to where reading goes on. -/
theorem Takes.isSlice {text gap piece : List Char} (h : Takes lines cursor after gap piece item)
    (hcursor : cursor.StandsIn text) : IsSlice text item.span.start after.offset piece := by
  obtain ⟨before, htext, hoffset⟩ := hcursor
  refine ⟨before ++ gap, after.rest, ?_, ?_, ?_⟩
  · rw [htext, h.rest]
    simp only [List.append_assoc]
  · rw [h.start, hoffset, byteLength_append]
  · rw [h.offset, h.start]

/-- A token covers its text. -/
theorem Takes.covers {text gap piece : List Char} {token : Token}
    (h : Takes (LineIndex.ofText text) cursor after gap piece (.ok token))
    (hcursor : cursor.StandsIn text) : token.span.Covers text token.text := by
  have hstop : token.span.stop = after.offset := h.whole nofun
  have hstart : token.span.start = cursor.offset + byteLength gap := h.start
  refine ⟨?_, ?_⟩
  · rw [(h.token token rfl).1, hstop]
    exact h.isSlice hcursor
  · rw [hstart]
    exact h.span

theorem exists_takes (h : cursor.next? lines = some (item, after)) :
    ∃ gap piece, Takes lines cursor after gap piece item := by
  obtain ⟨c, rest, hrest, rfl, rfl⟩ := next?_cases h
  obtain ⟨gap, htext, hoffset, hgap⟩ := cursor.skipBlanks_gap
  obtain ⟨hblank, hsemicolon⟩ := skipBlanks_go_stop hrest
  rw [hrest] at htext hgap
  have happend := Lexeme.scan_append c rest
  have hpos : 0 < byteLength (Lexeme.scan c rest).1.text :=
    Nat.pos_of_ne_zero (mt byteLength_eq_zero.mp (Lexeme.scan_text_ne_nil c rest))
  have hextent := Lexeme.scan_extent c rest
  have hspan : TokenResult.span (result lines cursor.skipBlanks.offset (Lexeme.scan c rest).1) =
      lines.span cursor.skipBlanks.offset
        (cursor.skipBlanks.offset + (Lexeme.scan c rest).1.extent) := by
    unfold result
    cases (Lexeme.scan c rest).1.kind <;> rfl
  have hunterminated : TokenResult.IsUnterminated
      (result lines cursor.skipBlanks.offset (Lexeme.scan c rest).1) ↔
      (Lexeme.scan c rest).1.kind = .error .unterminatedString := by
    unfold result TokenResult.IsUnterminated
    cases (Lexeme.scan c rest).1.kind <;> simp
  refine ⟨gap, (Lexeme.scan c rest).1.text, ?_⟩
  constructor
  case rest => rw [htext, happend]
  case offset => rw [hoffset]
  case isGap => rwa [happend]
  case span =>
    rw [hspan, hoffset]
    rfl
  case start_lt => rw [hspan]; simp only [LineIndex.span]; omega
  case stop_le => rw [hspan]; simp only [LineIndex.span]; omega
  case whole =>
    rw [hunterminated, hspan]
    intro hclosed
    rcases hextent with hall | ⟨-, -, hopen⟩
    · simp only [LineIndex.span, hall]
    · exact absurd hopen hclosed
  case last =>
    rw [hunterminated]
    exact Lexeme.rest_of_unterminated
  case token =>
    intro token htoken
    obtain ⟨hkind, htext, -⟩ := result_eq_ok htoken
    exact ⟨htext, Lexeme.isTokenBefore_scan hkind hblank hsemicolon⟩

/-! ## All steps -/

/-- Items are read from some place of the text on, however many there are in front. -/
theorem StandsIn.exists_of_tokens_append {text : List Char} {earlier later : List TokenResult}
    (hcursor : cursor.StandsIn text) (h : cursor.tokens lines = earlier ++ later) :
    ∃ place : Cursor, place.StandsIn text ∧ place.tokens lines = later := by
  induction earlier generalizing cursor with
  | nil => exact ⟨cursor, hcursor, h⟩
  | cons first earlier ih =>
    rw [tokens] at h
    split at h
    · cases h
    · rename_i item after hnext
      exact ih (hcursor.next? hnext) (List.cons.inj h).2

theorem offset_le_of_mem_tokens (h : item ∈ cursor.tokens lines) :
    cursor.offset ≤ item.span.start := by
  induction cursor using tokens.induct lines with
  | case1 cursor hnone =>
    rw [tokens_of_next?_none hnone] at h
    cases h
  | case2 cursor first after hsome ih =>
    obtain ⟨gap, piece, htakes⟩ := exists_takes hsome
    rw [tokens_of_next?_some hsome] at h
    have hstart := htakes.start
    have hoffset := htakes.offset
    rcases List.mem_cons.mp h with rfl | hlater
    · omega
    · have := ih hlater
      omega

theorem tokens_pairwise (lines : LineIndex) (cursor : Cursor) :
    (cursor.tokens lines).Pairwise fun item later => item.span.stop ≤ later.span.start := by
  induction cursor using tokens.induct lines with
  | case1 cursor hnone => rw [tokens_of_next?_none hnone]; exact .nil
  | case2 cursor first after hsome ih =>
    obtain ⟨gap, piece, htakes⟩ := exists_takes hsome
    rw [tokens_of_next?_some hsome]
    refine List.pairwise_cons.mpr ⟨fun later hlater => ?_, ih⟩
    exact Nat.le_trans htakes.stop_le (offset_le_of_mem_tokens hlater)

theorem tokens_of_rest_nil (h : cursor.rest = []) : cursor.tokens lines = [] := by
  refine tokens_of_next?_none (next?_eq_none ?_)
  rw [skipBlanks, h]
  rfl

end Cursor

/-! ## Between the items -/

/-- Where the last of some items ends, or where the first would begin if there are none. -/
def endOf (start : Nat) (items : List TokenResult) : Nat :=
  (items.getLast?.map (·.span.stop)).getD start

/-- Where the first of some items begins, or where the last would end if there are none. -/
def startOf (stop : Nat) (items : List TokenResult) : Nat :=
  (items.head?.map (·.span.start)).getD stop

theorem endOf_cons (start : Nat) (item : TokenResult) (items : List TokenResult) :
    endOf start (item :: items) = endOf item.span.stop items := by
  rw [endOf, endOf, List.getLast?_cons]
  cases items.getLast? <;> rfl

/-- Between two items that follow each other, before the first and after the last, there is a gap. -/
theorem Cursor.exists_gap {lines : LineIndex} {cursor : Cursor} {before : List Char}
    {earlier later : List TokenResult} (hoffset : cursor.offset = byteLength before)
    (h : cursor.tokens lines = earlier ++ later)
    (hclosed : ∀ item ∈ earlier.getLast?, ¬ item.IsUnterminated) :
    ∃ front gap after, before ++ cursor.rest = front ++ gap ++ after ∧
      byteLength front = endOf cursor.offset earlier ∧
      byteLength (front ++ gap) = startOf cursor.reach later ∧ IsGap after gap := by
  induction cursor using tokens.induct lines generalizing before earlier with
  | case1 cursor hnone =>
    obtain ⟨gap, hrest, -, hgap⟩ := cursor.skipBlanks_gap
    rw [skipBlanks_rest_eq_nil hnone] at hrest hgap
    rw [tokens_of_next?_none hnone] at h
    obtain ⟨rfl, rfl⟩ := List.append_eq_nil_iff.mp h.symm
    refine ⟨before, gap, [], by rw [hrest, List.append_assoc], hoffset.symm, ?_, hgap⟩
    rw [startOf, reach, hrest, List.append_nil, byteLength_append, hoffset]
    rfl
  | case2 cursor item after hsome ih =>
    obtain ⟨gap, piece, htakes⟩ := exists_takes hsome
    rw [tokens_of_next?_some hsome] at h
    cases earlier with
    | nil =>
      cases h
      refine ⟨before, gap, piece ++ after.rest, by rw [htakes.rest, List.append_assoc],
        hoffset.symm, ?_, htakes.isGap⟩
      rw [byteLength_append, ← hoffset]
      exact htakes.start.symm
    | cons first earlier =>
      obtain ⟨rfl, hlater⟩ := List.cons.inj h
      have hnext : after.offset = byteLength (before ++ gap ++ piece) := by
        rw [htakes.offset, hoffset, byteLength_append, byteLength_append]
      have hreach : after.reach = cursor.reach := by
        simp only [reach, htakes.offset, htakes.rest, byteLength_append]
        omega
      have hend : endOf after.offset earlier = endOf cursor.offset (item :: earlier) := by
        rw [endOf_cons]
        cases earlier with
        | nil => exact (htakes.whole (hclosed item rfl)).symm
        | cons next earlier => rw [endOf_cons, endOf_cons]
      have hclosed' : ∀ item ∈ earlier.getLast?, ¬ item.IsUnterminated := by
        intro item' hitem'
        refine hclosed item' ?_
        rw [List.getLast?_cons, hitem']
        rfl
      have hgap := ih hnext hlater hclosed'
      rw [hend, hreach] at hgap
      simpa [htakes.rest] using hgap

/-- **Nothing is lost.** The items of a text stand one behind the other, none of them empty. A token is
the text at its span. In front of the first item, between two of them and behind the last there are only
blanks and comments; only behind an unclosed string there may be more, and that is the last item. -/
theorem tokenize_partitions (source : String) :
    (∀ item ∈ tokenize source, item.span.start < item.span.stop ∧
      item.span.stop ≤ source.utf8ByteSize) ∧
    ((tokenize source).Pairwise fun item later => item.span.stop ≤ later.span.start) ∧
    (∀ token, .ok token ∈ tokenize source → token.span.Covers source.toList token.text) ∧
    (∀ earlier item later, tokenize source = earlier ++ item :: later → item.IsUnterminated →
      later = []) ∧
    ∀ earlier later, tokenize source = earlier ++ later →
      (∀ item ∈ earlier.getLast?, ¬ item.IsUnterminated) →
      ∃ before gap after, source.toList = before ++ gap ++ after ∧
        byteLength before = endOf 0 earlier ∧
        byteLength (before ++ gap) = startOf source.utf8ByteSize later ∧ IsGap after gap := by
  have hstart := Cursor.standsIn_ofText source.toList
  refine ⟨?_, Cursor.tokens_pairwise _ _, ?_, ?_, ?_⟩
  · intro item hitem
    obtain ⟨place, after, hplace, hnext⟩ := hstart.exists_of_mem_tokens hitem
    obtain ⟨gap, piece, htakes⟩ := Cursor.exists_takes hnext
    have hinside := (htakes.isSlice hplace).stop_le
    rw [byteLength_toList] at hinside
    exact ⟨htakes.start_lt, Nat.le_trans htakes.stop_le hinside⟩
  · intro token htoken
    obtain ⟨place, after, hplace, hnext⟩ := hstart.exists_of_mem_tokens htoken
    obtain ⟨gap, piece, htakes⟩ := Cursor.exists_takes hnext
    exact htakes.covers hplace
  · intro earlier item later h hopen
    obtain ⟨place, -, hplace⟩ := hstart.exists_of_tokens_append h
    rw [Cursor.tokens] at hplace
    split at hplace
    · cases hplace
    · rename_i first after hnext
      obtain ⟨rfl, rfl⟩ := List.cons.inj hplace
      obtain ⟨gap, piece, htakes⟩ := Cursor.exists_takes hnext
      exact Cursor.tokens_of_rest_nil (htakes.last hopen)
  · intro earlier later h hclosed
    have hoffset : (Cursor.ofText source.toList).offset = byteLength [] := rfl
    have hgap := Cursor.exists_gap hoffset h hclosed
    simpa [Cursor.reach, Cursor.ofText] using hgap

/-- Two tokens, a comment, two errors and an unclosed string. The gap is that with the comment. -/
theorem tokenize_partitions_unclosed :
    let source := "(a, ; x)\n'|b\n\"c\\"
    let earlier := (tokenize source).take 2
    let later := (tokenize source).drop 2
    (tokenize source).map (fun item => (item.span.start, item.span.stop)) =
        [(0, 1), (1, 2), (9, 10), (10, 12), (13, 16)] ∧
      endOf 0 earlier = 2 ∧ startOf source.utf8ByteSize later = 9 ∧
      (∀ item ∈ earlier.getLast?, ¬ item.IsUnterminated) ∧
      ∃ before gap after, source.toList = before ++ gap ++ after ∧
        byteLength before = endOf 0 earlier ∧
        byteLength (before ++ gap) = startOf source.utf8ByteSize later ∧ IsGap after gap := by
  intro source earlier later
  have hrun : ((tokenize source).map (fun item => (item.span.start, item.span.stop)) =
        [(0, 1), (1, 2), (9, 10), (10, 12), (13, 16)] ∧
      endOf 0 earlier = 2 ∧ startOf source.utf8ByteSize later = 9) ∧
      earlier.getLast?.map TokenResult.lexeme? = some (some (.leaf .atom, ['a'])) := by
    decide +kernel
  obtain ⟨⟨hspans, hend, hstart⟩, hatom⟩ := hrun
  have hclosed : ∀ item ∈ earlier.getLast?, ¬ item.IsUnterminated := by
    rintro item hitem ⟨span, rfl⟩
    rw [hitem] at hatom
    cases hatom
  have hsplit : tokenize source = earlier ++ later := (List.take_append_drop 2 _).symm
  exact ⟨hspans, hend, hstart, hclosed,
    (tokenize_partitions source).2.2.2.2 earlier later hsplit hclosed⟩

end Interop
