import Interop.Proofs.Form.Spans
import Interop.Proofs.Token.Place

/-! Texts of tokens, put after each other. A text that is one token by itself is that token wherever a
boundary or nothing comes after it, a delimiter and a quoted text even wherever anything does. So a
text can be read off token by token, with spaces in between. -/

namespace Interop

/-- Whether a text is empty or begins with a boundary. -/
def Separated (text : List Char) : Prop := ∀ c ∈ text.head?, isBoundary c = true

theorem separated_nil : Separated [] := nofun

theorem separated_cons {c : Char} (h : isBoundary c = true) (text : List Char) :
    Separated (c :: text) := by
  rintro d ⟨⟩
  exact h

/-- A run of characters ends where a boundary comes, if no boundary belongs to such runs. -/
theorem Separated.split {p : Char → Bool} {text rest : List Char}
    (hstop : ∀ c, isBoundary c = true → p c = false) (htext : ∀ c ∈ text, p c = true)
    (hrest : Separated rest) :
    (text ++ rest).takeWhile p = text ∧ (text ++ rest).dropWhile p = rest := by
  rw [List.takeWhile_append_of_pos htext, List.dropWhile_append_of_pos htext]
  cases rest with
  | nil => simp
  | cons c rest =>
    have hc : p c = false := hstop c (hrest c rfl)
    simp [hc]

theorem not_isBoundary_of_isAtomPart {c : Char} (h : isAtomPart c = true) :
    isBoundary c = false := by
  cases hc : isBoundary c with
  | false => rfl
  | true => simp [isAtomPart, hc] at h

theorem not_isBlank_of_not_isBoundary {c : Char} (h : isBoundary c = false) :
    isBlank c = false ∧ c ≠ ';' := by
  simp only [isBoundary, Bool.or_eq_false_iff, decide_eq_false_iff_not] at h
  obtain ⟨⟨⟨⟨⟨⟨hblank, -⟩, -⟩, -⟩, -⟩, -⟩, hsemicolon⟩ := h
  exact ⟨hblank, hsemicolon⟩

namespace Lexeme

variable {c : Char} {text body rest : List Char} {kind : TokenKind}

/-- A text that is one token when it comes in front of the rest. -/
def IsTokenBefore (rest : List Char) (kind : TokenKind) (text : List Char) : Prop :=
  ∃ c cs, text = c :: cs ∧ isBlank c = false ∧ c ≠ ';' ∧
    scan c (cs ++ rest) = ({ kind := .ok kind, text := c :: cs }, rest)

theorem isToken_opening (delimiter : Delimiter) :
    IsTokenBefore rest (.opening delimiter) delimiter.opening.toList := by
  cases delimiter <;> exact ⟨_, [], rfl, by decide, by decide, rfl⟩

theorem isToken_closing (delimiter : Delimiter) :
    IsTokenBefore rest (.closing delimiter) delimiter.closing.toList := by
  cases delimiter <;> exact ⟨_, [], rfl, by decide, by decide, rfl⟩

theorem scan_of_isAtomPart (h : isAtomPart c = true) (rest : List Char) :
    scan c rest = ({ kind := .ok (.leaf .atom), text := c :: rest.takeWhile isAtomPart },
      rest.dropWhile isAtomPart) := by
  unfold scan
  split
  case h_9 => rfl
  all_goals exact absurd h (by decide)

theorem isToken_atom (hne : text ≠ []) (htext : ∀ c ∈ text, isAtomPart c = true)
    (hrest : Separated rest) : IsTokenBefore rest (.leaf .atom) text := by
  cases text with
  | nil => exact absurd rfl hne
  | cons c cs =>
    obtain ⟨hc, hcs⟩ := List.forall_mem_cons.mp htext
    obtain ⟨hblank, hsemicolon⟩ := not_isBlank_of_not_isBoundary (not_isBoundary_of_isAtomPart hc)
    have hstop : ∀ c, isBoundary c = true → isAtomPart c = false := fun c hc => by
      simp [isAtomPart, hc]
    obtain ⟨htake, hdrop⟩ := hrest.split hstop hcs
    refine ⟨c, cs, rfl, hblank, hsemicolon, ?_⟩
    rw [scan_of_isAtomPart hc, htake, hdrop]

/-- A backslash takes any character along but a space. -/
theorem isToken_character (hc : isSpace c = false) (hrest : Separated rest) :
    IsTokenBefore rest (.leaf .character) ['\\', c] := by
  refine ⟨'\\', [c], rfl, by decide, by decide, ?_⟩
  have hstop : ∀ c, isBoundary c = true → (!isBoundary c) = false := fun c hc => by simp [hc]
  obtain ⟨htake, hdrop⟩ := hrest.split hstop (List.forall_mem_nil _)
  -- A boundary is a literal of its own; any other character goes on up to the next boundary.
  cases hboundary : isBoundary c with
  | true => simp [scan, character, hc, hboundary]
  | false =>
    rw [List.nil_append] at htake hdrop
    simp [scan, character, hc, hboundary, htake, hdrop]

theorem isToken_quoted (hclose : closeQuote? (body ++ '"' :: rest) = some (body ++ ['"'], rest)) :
    IsTokenBefore rest (.leaf .quoted) ('"' :: body ++ ['"']) := by
  refine ⟨'"', body ++ ['"'], rfl, by decide, by decide, ?_⟩
  simp [scan, quoted, hclose]

end Lexeme

/-! ## The tokens of a text -/

/-- Whether a text consists of these tokens, with nothing but blanks and comments in between. -/
def Spells (text : List Char) (lexemes : List (TokenKind × List Char)) : Prop :=
  ∀ lines offset, (({ offset, rest := text } : Cursor).tokens lines).map TokenResult.lexeme? =
    lexemes.map some

variable {text rest : List Char} {kind : TokenKind} {lexemes : List (TokenKind × List Char)}

theorem spells_nil : Spells [] [] := by
  intro lines offset
  rw [Cursor.tokens_of_next?_none (Cursor.next?_eq_none rfl)]
  rfl

theorem Spells.token (htoken : Lexeme.IsTokenBefore rest kind text) (h : Spells rest lexemes) :
    Spells (text ++ rest) ((kind, text) :: lexemes) := by
  obtain ⟨c, cs, rfl, hblank, hsemicolon, hscan⟩ := htoken
  intro lines offset
  have hskip : (Cursor.mk offset (c :: (cs ++ rest))).skipBlanks =
      { offset, rest := c :: (cs ++ rest) } := by
    simp [Cursor.skipBlanks, Cursor.skipBlanks.go, hblank, hsemicolon]
  have hrest := congrArg Cursor.rest hskip
  rw [List.cons_append, Cursor.tokens_of_next?_some (Cursor.next?_eq_some hrest), hscan,
    List.map_cons, List.map_cons, h]
  rfl

theorem Spells.space (h : Spells text lexemes) : Spells (' ' :: text) lexemes := by
  intro lines offset
  have hnext : (Cursor.mk offset (' ' :: text)).next? lines =
      (Cursor.mk (offset + 1) text).next? lines := rfl
  rw [Cursor.tokens, hnext, ← Cursor.tokens, h]

theorem Spells.tokenize {source : String} (h : Spells source.toList lexemes) :
    (Interop.tokenize source).map TokenResult.lexeme? = lexemes.map some := h _ _

/-! ## Atoms of a text -/

theorem Cursor.skipBlanks_go_stop {inComment : Bool} {offset : Nat} {c : Char}
    (h : (skipBlanks.go inComment offset text).rest = c :: rest) :
    isBlank c = false ∧ c ≠ ';' := by
  fun_induction skipBlanks.go inComment offset text with
  | case1 => cases h
  | case2 offset d text ih => exact ih h
  | case3 inComment offset d text hcomment hblank ih => exact ih h
  | case4 inComment offset text hcomment hblank ih => exact ih h
  | case5 inComment offset d text hcomment hblank hsemicolon =>
    cases h
    exact ⟨by simpa using hblank, hsemicolon⟩

theorem Lexeme.isAtomPart_of_scan {c : Char} (h : (scan c rest).1.kind = .ok (.leaf .atom))
    (hblank : isBlank c = false) (hsemicolon : c ≠ ';') :
    ∀ d ∈ (scan c rest).1.text, isAtomPart d = true := by
  revert h
  fun_cases scan c rest with
  | case5 =>
    intro h
    cases kind_of_quoted h
  | case6 =>
    intro h
    cases kind_of_verbatim h
  | case7 =>
    intro h
    cases kind_of_character h
  | case9 =>
    intro _
    have hc : isAtomPart c = true := by
      simp_all [isAtomPart, isBoundary]
    exact List.forall_mem_cons.mpr ⟨hc, fun d hd => List.mem_takeWhile_imp hd⟩
  | _ =>
    intro h
    cases h

/-- An atom of a text is made of the characters that atoms are made of. -/
theorem isAtomPart_of_mem_tokenize {source : String} {token : Token}
    (h : .ok token ∈ Interop.tokenize source) (hkind : token.kind = .leaf .atom) :
    token.text ≠ [] ∧ ∀ c ∈ token.text, isAtomPart c = true := by
  obtain ⟨place, after, -, hnext⟩ := (Cursor.standsIn_ofText _).exists_of_mem_tokens h
  obtain ⟨c, rest, hrest, hitem, -⟩ := Cursor.next?_cases hnext
  obtain ⟨hlexeme, htext, -⟩ := Cursor.result_eq_ok hitem.symm
  obtain ⟨hblank, hsemicolon⟩ := Cursor.skipBlanks_go_stop hrest
  rw [hkind] at hlexeme
  rw [htext]
  exact ⟨Lexeme.scan_text_ne_nil c rest, Lexeme.isAtomPart_of_scan hlexeme hblank hsemicolon⟩

end Interop
