import Interop.Proofs.Text.Position
import Interop.Proofs.Token.Lexeme
import Interop.Token.Lexer

/-! Places of tokens. A cursor over a text always stands between two parts of it, so the span of a
token is that of its text, and a delimiter covers one byte on one line. -/

namespace Interop

namespace Span

/-- The span of the first byte, when that is not a newline. -/
def firstByte (span : Span) : Span where
  start := span.start
  stop := span.start + 1
  first := span.first
  last := span.first.right 1

/-- The span of the last byte, when that is not a newline. -/
def lastByte (span : Span) : Span where
  start := span.stop - 1
  stop := span.stop
  first := { span.last with column := span.last.column - 1 }
  last := span.last

/-- Whether a span covers one byte that is not a newline. -/
def IsByte (span : Span) : Prop := span.firstByte = span

theorem IsByte.lastByte_eq {span : Span} (h : span.IsByte) : span.lastByte = span := by
  rw [← h]
  rfl

end Span

namespace Cursor

/-- A cursor stands in a text when what is left of it comes after as many bytes as it says. -/
def StandsIn (text : List Char) (cursor : Cursor) : Prop :=
  ∃ before, text = before ++ cursor.rest ∧ cursor.offset = byteLength before

theorem standsIn_ofText (text : List Char) : (ofText text).StandsIn text := ⟨[], rfl, rfl⟩

theorem standsIn_skipBlanks_go {text before rest : List Char} (inComment : Bool)
    (h : text = before ++ rest) :
    (skipBlanks.go inComment (byteLength before) rest).StandsIn text := by
  induction rest generalizing before inComment with
  | nil => exact ⟨before, h, rfl⟩
  | cons c rest ih =>
    have hnext : text = (before ++ [c]) ++ rest := by simp [h]
    have hlength : byteLength before + c.utf8Size = byteLength (before ++ [c]) := by simp
    simp only [skipBlanks.go, hlength]
    split
    · exact ih _ hnext
    · split
      · exact ih _ hnext
      · split
        · exact ih _ hnext
        · exact ⟨before, h, rfl⟩

theorem StandsIn.skipBlanks {text : List Char} {cursor : Cursor} (h : cursor.StandsIn text) :
    cursor.skipBlanks.StandsIn text := by
  obtain ⟨before, htext, hoffset⟩ := h
  rw [Cursor.skipBlanks, hoffset]
  exact standsIn_skipBlanks_go false htext

/-! ## One token -/

variable {lines : LineIndex} {cursor : Cursor} {c : Char} {rest : List Char}

/-- What the lexeme at a cursor gives. -/
def result (lines : LineIndex) (start : Nat) (lexeme : Lexeme) : TokenResult :=
  let span := lines.span start (start + lexeme.extent)
  match lexeme.kind with
  | .ok kind => .ok { kind, span, text := lexeme.text }
  | .error fault => .error { fault, span }

theorem next?_eq_none (h : cursor.skipBlanks.rest = []) : cursor.next? lines = none := by
  simp only [next?, h]

theorem next?_eq_some (h : cursor.skipBlanks.rest = c :: rest) :
    cursor.next? lines =
      some (result lines cursor.skipBlanks.offset (Lexeme.scan c rest).1,
        { offset := cursor.skipBlanks.offset + byteLength (Lexeme.scan c rest).1.text
          rest := (Lexeme.scan c rest).2 }) := by
  simp only [next?, h]
  rfl

/-- A cursor at which something is read stands before a character, and after reading behind the
lexeme that starts with it. -/
theorem next?_cases {item : TokenResult} {after : Cursor}
    (h : cursor.next? lines = some (item, after)) :
    ∃ c rest, cursor.skipBlanks.rest = c :: rest ∧
      item = result lines cursor.skipBlanks.offset (Lexeme.scan c rest).1 ∧
      after = { offset := cursor.skipBlanks.offset + byteLength (Lexeme.scan c rest).1.text
                rest := (Lexeme.scan c rest).2 } := by
  cases hrest : cursor.skipBlanks.rest with
  | nil =>
    rw [next?_eq_none hrest] at h
    cases h
  | cons c rest =>
    rw [next?_eq_some hrest] at h
    cases h
    exact ⟨c, rest, rfl, rfl, rfl⟩

theorem result_eq_ok {start : Nat} {lexeme : Lexeme} {token : Token}
    (h : result lines start lexeme = .ok token) :
    lexeme.kind = .ok token.kind ∧ token.text = lexeme.text ∧
      token.span = lines.span start (start + lexeme.extent) := by
  simp only [result] at h
  split at h
  · rename_i kind hkind
    cases h
    exact ⟨hkind, rfl, rfl⟩
  · cases h

theorem StandsIn.next? {text : List Char} {item : TokenResult} {after : Cursor}
    (hcursor : cursor.StandsIn text) (h : cursor.next? lines = some (item, after)) :
    after.StandsIn text := by
  obtain ⟨c, rest, hrest, -, rfl⟩ := next?_cases h
  obtain ⟨before, htext, hoffset⟩ := hcursor.skipBlanks
  refine ⟨before ++ (Lexeme.scan c rest).1.text, ?_, ?_⟩
  · rw [htext, hrest, List.append_assoc, Lexeme.scan_append]
  · rw [byteLength_append, hoffset]

/-- A token that is no leaf covers one byte. -/
theorem isByte_of_next? {text : List Char} {token : Token} {after : Cursor}
    (hcursor : cursor.StandsIn text)
    (h : cursor.next? (LineIndex.ofText text) = some (.ok token, after)) :
    (∃ leaf, token.kind = .leaf leaf) ∨ token.span.IsByte := by
  obtain ⟨c, rest, hrest, hitem, -⟩ := next?_cases h
  obtain ⟨hkind, -, hspan⟩ := result_eq_ok hitem.symm
  obtain ⟨before, htext, hoffset⟩ := hcursor.skipBlanks
  refine (Lexeme.leaf_or_text_eq hkind).imp_right fun ⟨hchar, hsize, hnewline⟩ => ?_
  have hextent : (Lexeme.scan c rest).1.extent = c.utf8Size := by
    rw [Lexeme.extent_of_kind_ok hkind, hchar]
    simp
  have hnext := LineIndex.position_next before rest hnewline
  rw [hrest] at htext
  rw [hsize] at hextent hnext
  rw [hspan, hextent, hoffset, htext, Span.IsByte]
  simp only [LineIndex.span, Span.firstByte, hnext]

/-! ## All tokens -/

theorem tokens_of_next?_none (h : cursor.next? lines = none) : cursor.tokens lines = [] := by
  rw [tokens, h]

theorem tokens_of_next?_some {item : TokenResult} {after : Cursor}
    (h : cursor.next? lines = some (item, after)) :
    cursor.tokens lines = item :: after.tokens lines := by
  rw [tokens, h]

/-- Every token and error is read at some place in the text. -/
theorem StandsIn.exists_of_mem_tokens {text : List Char} {item : TokenResult}
    (hcursor : cursor.StandsIn text) (h : item ∈ cursor.tokens lines) :
    ∃ place after : Cursor, place.StandsIn text ∧ place.next? lines = some (item, after) := by
  induction cursor using tokens.induct lines with
  | case1 cursor hnone =>
    rw [tokens_of_next?_none hnone] at h
    cases h
  | case2 cursor first after hsome ih =>
    rw [tokens_of_next?_some hsome] at h
    rcases List.mem_cons.mp h with rfl | h
    · exact ⟨cursor, after, hcursor, hsome⟩
    · exact ih (hcursor.next? hsome) h

end Cursor

/-- Only a leaf can cover more than one byte. -/
theorem isByte_of_mem_tokenize {source : String} {token : Token}
    (h : .ok token ∈ tokenize source) :
    (∃ leaf, token.kind = .leaf leaf) ∨ token.span.IsByte := by
  obtain ⟨place, after, hplace, hnext⟩ := (Cursor.standsIn_ofText _).exists_of_mem_tokens h
  exact Cursor.isByte_of_next? hplace hnext

end Interop
