import Interop.Token.Lexeme

/-! The tokens of a text. A `Cursor` is a place in the text; reading a token moves it forward,
and past text that starts no token reading goes on. A `Lexer` puts one result of lookahead
in front of a cursor. -/

namespace Interop

structure Cursor where
  offset : Nat
  rest : List Char
deriving DecidableEq, Repr

namespace Cursor

def ofText (text : List Char) : Cursor := { offset := 0, rest := text }

/-- Moves past blanks and comments. A comment runs from a semicolon up to the newline. -/
def skipBlanks (cursor : Cursor) : Cursor := go false cursor.offset cursor.rest
where
  go (inComment : Bool) (offset : Nat) : List Char → Cursor
    | [] => { offset, rest := [] }
    | c :: rest =>
      if inComment then go (c != '\n') (offset + c.utf8Size) rest
      else if isBlank c then go false (offset + c.utf8Size) rest
      else if c = ';' then go true (offset + c.utf8Size) rest
      else { offset, rest := c :: rest }

/-- The next token or error, and the place after it; `none` when only blanks and comments
are left. -/
def next? (lines : LineIndex) (cursor : Cursor) : Option (TokenResult × Cursor) :=
  let start := cursor.skipBlanks
  match start.rest with
  | [] => none
  | c :: rest =>
    let (lexeme, after) := Lexeme.scan c rest
    let span := lines.span start.offset (start.offset + lexeme.extent)
    let result := match lexeme.kind with
      | .ok kind => .ok { kind, span, text := lexeme.text }
      | .error fault => .error { fault, span }
    some (result, { offset := start.offset + byteLength lexeme.text, rest := after })

theorem length_skipBlanks_go_le (inComment : Bool) (offset : Nat) (text : List Char) :
    (skipBlanks.go inComment offset text).rest.length ≤ text.length := by
  induction text generalizing inComment offset with
  | nil => simp [skipBlanks.go]
  | cons c rest ih =>
    simp only [skipBlanks.go]
    split
    · exact Nat.le_succ_of_le (ih ..)
    · split
      · exact Nat.le_succ_of_le (ih ..)
      · split
        · exact Nat.le_succ_of_le (ih ..)
        · simp

theorem length_next?_lt {lines : LineIndex} {cursor after : Cursor} {result : TokenResult}
    (h : cursor.next? lines = some (result, after)) :
    after.rest.length < cursor.rest.length := by
  have hskip := length_skipBlanks_go_le false cursor.offset cursor.rest
  simp only [next?] at h
  split at h
  · contradiction
  · rename_i c rest hrest
    simp only [Option.some.injEq, Prod.mk.injEq] at h
    have hscan := Lexeme.length_scan_lt c rest
    rw [← h.2]
    simp only [skipBlanks] at hrest
    rw [hrest] at hskip
    exact Nat.lt_of_lt_of_le hscan hskip

/-- Every token and error from a place on. -/
def tokens (lines : LineIndex) (cursor : Cursor) : List TokenResult :=
  match _h : cursor.next? lines with
  | none => []
  | some (result, after) => result :: tokens lines after
termination_by cursor.rest.length
decreasing_by exact length_next?_lt ‹_›

end Cursor

/-- Every token and error of a source text. -/
def tokenize (source : String) : List TokenResult :=
  (Cursor.ofText source.toList).tokens (LineIndex.ofText source.toList)

/-- The empty span at the end of a source text. -/
def endSpan (source : String) : Span :=
  (LineIndex.ofText source.toList).span source.utf8ByteSize source.utf8ByteSize

/-- A cursor with at most one result read ahead of time. -/
structure Lexer where
  lines : LineIndex
  cursor : Cursor
  ahead : Option TokenResult := none

namespace Lexer

def ofSource (source : String) : Lexer :=
  { lines := LineIndex.ofText source.toList, cursor := Cursor.ofText source.toList }

/-- Reads on, whatever has been read ahead. At the end the cursor moves past the last
blanks. -/
def read (lexer : Lexer) : Option TokenResult × Lexer :=
  match lexer.cursor.next? lexer.lines with
  | none => (none, { lexer with cursor := lexer.cursor.skipBlanks })
  | some (result, after) => (some result, { lexer with cursor := after })

/-- Takes the next result. -/
def next (lexer : Lexer) : Option TokenResult × Lexer :=
  match lexer.ahead with
  | some result => (some result, { lexer with ahead := none })
  | none => lexer.read

/-- Shows the next result without taking it. -/
def peek (lexer : Lexer) : Option TokenResult × Lexer :=
  match lexer.ahead with
  | some result => (some result, lexer)
  | none =>
    let (result, after) := lexer.read
    (result, { after with ahead := result })

def isAtEnd (lexer : Lexer) : Bool × Lexer :=
  let (result, after) := lexer.peek
  (result.isNone, after)

/-- Takes all that is left. -/
def takeAll (lexer : Lexer) : List TokenResult :=
  lexer.ahead.toList ++ lexer.cursor.tokens lexer.lines

end Lexer

end Interop
