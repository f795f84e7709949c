import Interop.Proofs.Token.Partition

/-! Stretches of tokens. Where a token ends is settled by the text up to the first character behind it,
so tokens that follow each other in a text are also the tokens of the piece that they take, cut out of
the text. That holds although strings, names between bars and character literals may contain what is a
delimiter elsewhere. -/

namespace Interop

/-! ## Cutting off what comes behind -/

/-- A run that ends in front of a text ends in front of the beginning of that text. -/
theorem takeWhile_of_append {p : Char → Bool} {front rest more : List Char}
    (h : (front ++ (rest ++ more)).takeWhile p = front) :
    (front ++ rest).takeWhile p = front ∧ (front ++ rest).dropWhile p = rest := by
  obtain ⟨hfront, hhead⟩ := takeWhile_append_eq_left_iff.mp h
  have htake : (front ++ rest).takeWhile p = front :=
    takeWhile_append_eq_left_iff.mpr ⟨hfront, fun c hc => hhead c (List.mem_head?_append_of_mem_head? hc)⟩
  have hsplit := List.takeWhile_append_dropWhile (p := p) (l := front ++ rest)
  rw [htake] at hsplit
  exact ⟨htake, List.append_cancel_left hsplit⟩

namespace Lexeme

variable {rest more text : List Char} {kind : TokenKind}

theorem IsTokenBefore.ne_nil (h : IsTokenBefore rest kind text) : text ≠ [] := by
  obtain ⟨c, cs, rfl, -⟩ := h
  exact List.cons_ne_nil c cs

/-- **Tokens are local.** A token in front of a text is the same token in front of the beginning of that
text. -/
theorem IsTokenBefore.of_append (h : IsTokenBefore (rest ++ more) kind text) :
    IsTokenBefore rest kind text := by
  obtain ⟨c, cs, rfl, hblank, hsemicolon, hscan⟩ := h
  refine ⟨c, cs, rfl, hblank, hsemicolon, ?_⟩
  have hkind : (scan c (cs ++ (rest ++ more))).1.kind = .ok kind := by rw [hscan]
  generalize htail : cs ++ (rest ++ more) = tail at hscan hkind
  revert hscan hkind
  fun_cases scan c tail with
  | case5 =>
    intro hscan hkind
    obtain ⟨body, after, hclose, heq⟩ := quoted_cases hkind
    cases heq.symm.trans hscan
    simp [scan, quoted, closeQuote?_body rest hclose]
  | case6 =>
    intro hscan hkind
    obtain ⟨name, after, -, hname, heq⟩ := verbatim_cases hkind
    have hsame := heq.symm.trans hscan
    obtain rfl : name ++ ['|'] = cs := by simpa using congrArg (·.1.text) hsame
    obtain rfl : .leaf .verbatim = kind := Except.ok.inj (congrArg (·.1.kind) hsame)
    have hpos : ∀ d ∈ name, (decide (d ≠ '|') && decide (d ≠ '\n')) = true := by simpa using hname
    simp only [scan, verbatim, List.append_assoc, List.cons_append,
      List.dropWhile_append_of_pos hpos, List.takeWhile_append_of_pos hpos]
    simp
  | case7 =>
    intro hscan hkind
    obtain ⟨d, after, hd, hspace, ⟨hboundary, heq⟩ | ⟨hboundary, heq⟩⟩ := character_cases hkind
    · cases heq.symm.trans hscan
      simp [scan, character, hspace, hboundary]
    · have hsame := heq.symm.trans hscan
      cases cs with
      | nil => simp at hsame
      | cons e cs =>
        obtain ⟨rfl, rfl⟩ := List.cons.inj (htail.trans hd)
        have hrun : (cs ++ (rest ++ more)).takeWhile (fun d => !isBoundary d) = cs := by
          simpa using congrArg (·.1.text) hsame
        obtain ⟨htake, hdrop⟩ := takeWhile_of_append hrun
        obtain rfl : .leaf .character = kind := Except.ok.inj (congrArg (·.1.kind) hsame)
        simp [scan, character, hspace, hboundary, htake, hdrop]
  | case8 =>
    intro hscan
    cases hscan
  | case9 =>
    intro hscan _
    have hrun : (cs ++ (rest ++ more)).takeWhile isAtomPart = cs := by
      rw [htail]
      simpa using congrArg (·.1.text) hscan
    obtain ⟨htake, hdrop⟩ := takeWhile_of_append hrun
    obtain rfl : .leaf .atom = kind := Except.ok.inj (congrArg (·.1.kind) hscan)
    simp [scan, *]
  | _ =>
    intro hscan _
    cases hscan
    rfl

/-- A token that is no leaf is a delimiter. -/
theorem IsTokenBefore.text_eq (h : IsTokenBefore rest kind text)
    (hkind : ∀ leaf, kind ≠ .leaf leaf) : text = kind.description.toList := by
  obtain ⟨c, cs, rfl, -, -, hscan⟩ := h
  have hok : (scan c (cs ++ rest)).1.kind = .ok kind := by rw [hscan]
  generalize cs ++ rest = tail at hscan hok
  revert hscan hok
  fun_cases scan c tail with
  | case5 => exact fun _ hok => absurd (kind_of_quoted hok) (hkind _)
  | case6 => exact fun _ hok => absurd (kind_of_verbatim hok) (hkind _)
  | case7 => exact fun _ hok => absurd (kind_of_character hok) (hkind _)
  | case8 =>
    intro hscan
    cases hscan
  | case9 => exact fun _ hok => absurd (Except.ok.inj hok).symm (hkind _)
  | _ =>
    intro hscan _
    cases hscan
    rfl

theorem getLast?_of_closeQuote? {text body after : List Char}
    (h : closeQuote? text = some (body, after)) : body.getLast? = some '"' := by
  fun_induction closeQuote? text generalizing body after with
  | case1 => cases h
  | case2 rest =>
    cases h
    rfl
  | case3 c rest ih | case4 c rest _ _ ih =>
    obtain ⟨⟨inner, left⟩, hinner, heq⟩ := Option.map_eq_some_iff.1 h
    cases heq
    simp [List.getLast?_cons, ih hinner]

theorem not_isSpace_of_not_isBoundary {c : Char} (h : isBoundary c = false) :
    isSpace c = false := by
  have hblank := (not_isBlank_of_not_isBoundary h).1
  rw [isBlank, Bool.or_eq_false_iff] at hblank
  exact hblank.1

/-- No token ends in a space. -/
theorem IsTokenBefore.not_isSpace_getLast (h : IsTokenBefore rest kind text) :
    ∀ c ∈ text.getLast?, isSpace c = false := by
  obtain ⟨c, cs, rfl, hblank, hsemicolon, hscan⟩ := h
  have hok : (scan c (cs ++ rest)).1.kind = .ok kind := by rw [hscan]
  rw [← show (scan c (cs ++ rest)).1.text = c :: cs by rw [hscan]]
  generalize cs ++ rest = tail at hok
  intro last hlast
  by_cases hatom : kind = .leaf .atom
  · rw [hatom] at hok
    have hpart := isAtomPart_of_scan hok hblank hsemicolon last (List.mem_of_mem_getLast? hlast)
    exact not_isSpace_of_not_isBoundary (not_isBoundary_of_isAtomPart hpart)
  revert hok hlast
  fun_cases scan c tail with
  | case5 =>
    intro hok hlast
    obtain ⟨body, after, hclose, heq⟩ := quoted_cases hok
    rw [heq, List.getLast?_cons, getLast?_of_closeQuote? hclose] at hlast
    cases hlast
    rfl
  | case6 =>
    intro hok hlast
    obtain ⟨name, after, -, -, heq⟩ := verbatim_cases hok
    rw [heq, List.getLast?_concat] at hlast
    cases hlast
    rfl
  | case7 =>
    intro hok hlast
    obtain ⟨d, after, -, hspace, ⟨-, heq⟩ | ⟨-, heq⟩⟩ := character_cases hok
    · rw [heq] at hlast
      cases hlast
      exact hspace
    · rw [heq] at hlast
      rcases List.mem_cons.mp (List.mem_of_mem_getLast? hlast) with rfl | hmem
      · rfl
      · rcases List.mem_cons.mp hmem with rfl | hrun
        · exact hspace
        · have hinside := List.mem_takeWhile_imp hrun
          exact not_isSpace_of_not_isBoundary (by simpa using hinside)
  | case8 =>
    intro hok
    cases hok
  | case9 => exact fun hok => absurd (Except.ok.inj hok).symm hatom
  | _ =>
    intro _ hlast
    cases hlast
    rfl

end Lexeme

/-- Blanks and comments stay what they are when what comes behind is cut off further on. -/
theorem IsGap.of_append {rest more gap : List Char} (h : IsGap (rest ++ more) gap) :
    IsGap rest gap := by
  induction h with
  | nil => exact .nil
  | blank hblank _ ih => exact .blank hblank ih
  | comment hbody hhead _ ih =>
    refine .comment hbody (fun c hc => hhead c ?_) ih
    rw [← List.append_assoc]
    exact List.mem_head?_append_of_mem_head? hc

/-! ## Gaps -/

namespace Cursor

/-- Inside a comment everything up to the newline is skipped. -/
theorem skipBlanks_go_comment {body : List Char} (hbody : '\n' ∉ body) (offset : Nat)
    (text : List Char) :
    skipBlanks.go true offset (body ++ text) =
      skipBlanks.go true (offset + byteLength body) text := by
  induction body generalizing offset with
  | nil => rfl
  | cons c body ih =>
    obtain ⟨hc, hbody⟩ := (List.mem_cons.not.trans not_or).mp hbody
    have hin : (c != '\n') = true := by simpa using Ne.symm hc
    rw [List.cons_append, skipBlanks.go, if_pos rfl, hin, ih hbody, byteLength_cons,
      Nat.add_assoc]

/-- At the end of its line a comment is over. -/
theorem skipBlanks_go_endOfComment {text : List Char} (h : ∀ c ∈ text.head?, c = '\n')
    (offset : Nat) : skipBlanks.go true offset text = skipBlanks.go false offset text := by
  cases text with
  | nil => rfl
  | cons c text =>
    obtain rfl := h c rfl
    rfl

/-- A gap is skipped. -/
theorem skipBlanks_go_of_isGap {rest gap : List Char} (h : IsGap rest gap) (offset : Nat) :
    skipBlanks.go false offset (gap ++ rest) =
      skipBlanks.go false (offset + byteLength gap) rest := by
  induction h generalizing offset with
  | nil => rfl
  | blank hblank _ ih =>
    rw [List.cons_append, skipBlanks.go, if_neg Bool.false_ne_true, if_pos hblank, ih,
      byteLength_cons, Nat.add_assoc]
  | comment hbody hhead _ ih =>
    have hsize : ';'.utf8Size = 1 := rfl
    rw [List.cons_append, skipBlanks.go, if_neg Bool.false_ne_true, if_neg (by decide), if_pos rfl,
      List.append_assoc, skipBlanks_go_comment hbody, skipBlanks_go_endOfComment hhead, ih,
      byteLength_cons, byteLength_append]
    simp only [Nat.add_assoc]

end Cursor

theorem Spells.gap {rest gap : List Char} {lexemes : List (TokenKind × List Char)}
    (h : Spells rest lexemes) (hgap : IsGap rest gap) : Spells (gap ++ rest) lexemes := by
  intro lines offset
  have hskip : (Cursor.mk offset (gap ++ rest)).skipBlanks =
      (Cursor.mk (offset + byteLength gap) rest).skipBlanks :=
    Cursor.skipBlanks_go_of_isGap hgap offset
  have hnext : (Cursor.mk offset (gap ++ rest)).next? lines =
      (Cursor.mk (offset + byteLength gap) rest).next? lines := by
    simp only [Cursor.next?, hskip]
  rw [Cursor.tokens, hnext, ← Cursor.tokens, h]

/-! ## Stretches -/

def Token.lexeme (token : Token) : TokenKind × List Char := (token.kind, token.text)

/-- Tokens that come next from a place on, behind a gap, and the piece of the text that they take. -/
structure Stretch (lines : LineIndex) (cursor : Cursor) (tokens : List Token)
    (gap piece after : List Char) : Prop where
  rest : cursor.rest = gap ++ (piece ++ after)
  isGap : IsGap (piece ++ after) gap
  first : ∀ token ∈ tokens.head?, token.text <+: piece ∧
    ∃ stop, token.span = lines.span (cursor.offset + byteLength gap) stop
  last : ∀ token ∈ tokens.getLast?, token.text <:+ piece ∧
    ∃ start, token.span = lines.span start (cursor.offset + byteLength gap + byteLength piece)
  nonempty : piece ≠ []
  isToken : ∀ token ∈ tokens, ∃ behind, Lexeme.IsTokenBefore behind token.kind token.text
  spells : Spells piece (tokens.map Token.lexeme)

namespace Cursor

variable {lines : LineIndex} {cursor after : Cursor} {token : Token}

theorem Takes.stretch {gap piece : List Char} (h : Takes lines cursor after gap piece (.ok token)) :
    Stretch lines cursor [token] gap piece after.rest := by
  obtain ⟨rfl, htoken⟩ := h.token token rfl
  have hspan : token.span = lines.span (cursor.offset + byteLength gap) token.span.stop := h.span
  have hstop : token.span.stop = after.offset := h.whole nofun
  rw [hstop, h.offset] at hspan
  constructor
  case rest => exact h.rest
  case isGap => exact h.isGap
  case first =>
    rintro _ ⟨⟩
    exact ⟨List.prefix_refl _, _, hspan⟩
  case last =>
    rintro _ ⟨⟩
    exact ⟨List.suffix_refl _, _, hspan⟩
  case nonempty => exact htoken.ne_nil
  case isToken => exact List.forall_mem_singleton.mpr ⟨_, htoken⟩
  case spells =>
    have hbefore : Lexeme.IsTokenBefore ([] ++ after.rest) token.kind token.text := htoken
    have hspells := spells_nil.token hbefore.of_append
    rw [List.append_nil] at hspells
    exact hspells

/-- A token comes in front of a stretch. -/
theorem Takes.stretch_cons {gap piece gap' piece' behind : List Char} {tokens : List Token}
    (h : Takes lines cursor after gap piece (.ok token)) (hne : tokens ≠ [])
    (hmore : Stretch lines after tokens gap' piece' behind) :
    Stretch lines cursor (token :: tokens) gap (piece ++ (gap' ++ piece')) behind := by
  have hone := h.stretch
  have hrest := hmore.rest
  constructor
  case rest => rw [hone.rest, hrest]; simp only [List.append_assoc]
  case isGap =>
    have hgap := hone.isGap
    rw [hrest] at hgap
    simpa only [List.append_assoc] using hgap
  case first =>
    rintro _ ⟨⟩
    obtain ⟨hfront, hspan⟩ := hone.first token rfl
    exact ⟨hfront.trans (List.prefix_append _ _), hspan⟩
  case last =>
    intro last hlast
    rw [List.getLast?_cons_of_ne_nil hne] at hlast
    obtain ⟨hsuffix, start, hspan⟩ := hmore.last last hlast
    refine ⟨hsuffix.trans ?_, start, ?_⟩
    · rw [← List.append_assoc]
      exact List.suffix_append _ _
    · rw [hspan, h.offset]
      simp only [byteLength_append, Nat.add_assoc]
  case nonempty => exact List.append_ne_nil_of_left_ne_nil hone.nonempty _
  case isToken =>
    exact List.forall_mem_cons.mpr ⟨hone.isToken token (.head _), hmore.isToken⟩
  case spells =>
    obtain ⟨rfl, htoken⟩ := h.token token rfl
    rw [hrest, ← List.append_assoc] at htoken
    exact (hmore.spells.gap hmore.isGap.of_append).token htoken.of_append

/-- **Tokens by themselves.** Tokens that come next in a text are the tokens of a piece of it. -/
theorem exists_stretch {tokens : List Token} {later : List TokenResult} (hne : tokens ≠ [])
    (h : cursor.tokens lines = tokens.map .ok ++ later) :
    ∃ gap piece after, Stretch lines cursor tokens gap piece after := by
  induction tokens generalizing cursor with
  | nil => exact absurd rfl hne
  | cons token tokens ih =>
    rw [Cursor.tokens] at h
    split at h
    · cases h
    · rename_i item after hnext
      obtain ⟨rfl, hlater⟩ := List.cons.inj h
      obtain ⟨gap, piece, htakes⟩ := exists_takes hnext
      by_cases hmore : tokens = []
      · subst hmore
        exact ⟨gap, piece, after.rest, htakes.stretch⟩
      · obtain ⟨gap', piece', behind, hstretch⟩ := ih hmore hlater
        exact ⟨gap, _, behind, htakes.stretch_cons hmore hstretch⟩

end Cursor

/-- The span from the first token to the last one covers the piece. -/
theorem Stretch.covers {text gap piece after : List Char} {cursor : Cursor} {tokens : List Token}
    {first last : Token} (h : Stretch (LineIndex.ofText text) cursor tokens gap piece after)
    (hcursor : cursor.StandsIn text) (hfirst : tokens.head? = some first)
    (hlast : tokens.getLast? = some last) : (first.span.through last.span).Covers text piece := by
  obtain ⟨before, htext, hoffset⟩ := hcursor
  obtain ⟨-, stop, hfirst⟩ := h.first first hfirst
  obtain ⟨-, start, hlast⟩ := h.last last hlast
  rw [hfirst, hlast]
  refine ⟨⟨before ++ gap, after, ?_, ?_, rfl⟩, rfl⟩
  · rw [htext, h.rest]
    simp only [List.append_assoc]
  · rw [byteLength_append, ← hoffset]
    rfl

end Interop
