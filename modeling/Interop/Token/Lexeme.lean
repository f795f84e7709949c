import Interop.Token.Basic

/-! Where tokens begin and end. `Lexeme.scan` takes the longest piece of text that the first
character can start; `Lexeme.scan_append` says that nothing is lost on the way. -/

namespace Interop

/-- Space, tab, newline, carriage return and form feed. -/
def isSpace (c : Char) : Bool :=
  c = ' ' || c = '\t' || c = '\n' || c = '\r' || c = '\x0c'

/-- A comma counts as blank between tokens. -/
def isBlank (c : Char) : Bool := isSpace c || c = ','

/-- Ends a run of characters in a token, whatever the token is. -/
def isBoundary (c : Char) : Bool :=
  isBlank c || c = '(' || c = ')' || c = '[' || c = ']' || c = '"' || c = ';'

def isAtomPart (c : Char) : Bool := !(isBoundary c || c = '\'' || c = '|' || c = '\\')

/-- A piece of text taken as one token, or as no token. The span of a lexeme covers
`extent` bytes of it. -/
structure Lexeme where
  kind : Except ReadFault TokenKind
  text : List Char
  extent : Nat := byteLength text

namespace Lexeme

/-- Splits a text after the first quote that no backslash stands before. A backslash takes the
character after it along. -/
def closeQuote? : List Char → Option (List Char × List Char)
  | [] => none
  | '"' :: rest => some (['"'], rest)
  | '\\' :: c :: rest => (closeQuote? rest).map fun (body, rest) => ('\\' :: c :: body, rest)
  | c :: rest => (closeQuote? rest).map fun (body, rest) => (c :: body, rest)

/-- How far into an unclosed string the last backslash with the byte after it reaches; zero
without a backslash. The argument `offset` is the length of the text before. -/
def lastEscape (offset : Nat) : List Char → Nat
  | [] => 0
  | '\\' :: c :: rest => max (offset + 2) (lastEscape (offset + 1 + c.utf8Size) rest)
  | '\\' :: [] => offset + 1
  | c :: rest => lastEscape (offset + c.utf8Size) rest

def quoted (rest : List Char) : Lexeme × List Char :=
  match closeQuote? rest with
  | some (body, after) => ({ kind := .ok (.leaf .quoted), text := '"' :: body }, after)
  | none =>
    ({ kind := .error .unterminatedString, text := '"' :: rest,
       extent := max 1 (lastEscape 1 rest) }, [])

def verbatim (rest : List Char) : Lexeme × List Char :=
  let inside := fun c => c ≠ '|' && c ≠ '\n'
  match rest.dropWhile inside with
  | '|' :: after =>
    ({ kind := .ok (.leaf .verbatim), text := '|' :: rest.takeWhile inside ++ ['|'] }, after)
  | after => ({ kind := .error .unrecognized, text := '|' :: rest.takeWhile inside }, after)

def character (rest : List Char) : Lexeme × List Char :=
  match rest with
  | [] => ({ kind := .error .unrecognized, text := ['\\'] }, [])
  | c :: after =>
    if isSpace c then ({ kind := .error .unrecognized, text := ['\\'] }, rest)
    else if isBoundary c then ({ kind := .ok (.leaf .character), text := ['\\', c] }, after)
    else
      let inside := fun c => !isBoundary c
      ({ kind := .ok (.leaf .character), text := '\\' :: c :: after.takeWhile inside },
        after.dropWhile inside)

/-- The lexeme that starts with the given character, and the text after it. Blanks and
comments have been skipped. -/
def scan (c : Char) (rest : List Char) : Lexeme × List Char :=
  match c with
  | '(' => ({ kind := .ok (.opening .paren), text := [c] }, rest)
  | ')' => ({ kind := .ok (.closing .paren), text := [c] }, rest)
  | '[' => ({ kind := .ok (.opening .bracket), text := [c] }, rest)
  | ']' => ({ kind := .ok (.closing .bracket), text := [c] }, rest)
  | '"' => quoted rest
  | '|' => verbatim rest
  | '\\' => character rest
  | '\'' => ({ kind := .error .unrecognized, text := [c] }, rest)
  | _ =>
    ({ kind := .ok (.leaf .atom), text := c :: rest.takeWhile isAtomPart },
      rest.dropWhile isAtomPart)

theorem closeQuote?_append {text body after : List Char}
    (h : closeQuote? text = some (body, after)) : body ++ after = text := by
  fun_induction closeQuote? text generalizing body after with
  | case1 => simp at h
  | case2 rest =>
    simp only [Option.some.injEq, Prod.mk.injEq] at h
    simp [← h.1, ← h.2]
  | case3 c rest ih =>
    obtain ⟨⟨inner, left⟩, hinner, heq⟩ := Option.map_eq_some_iff.1 h
    simp only [Prod.mk.injEq] at heq
    simp [← heq.1, ← heq.2, ih hinner]
  | case4 c rest _ _ ih =>
    obtain ⟨⟨inner, left⟩, hinner, heq⟩ := Option.map_eq_some_iff.1 h
    simp only [Prod.mk.injEq] at heq
    simp [← heq.1, ← heq.2, ih hinner]

/-- What is scanned and what is left make up the text. -/
theorem scan_append (c : Char) (rest : List Char) :
    (scan c rest).1.text ++ (scan c rest).2 = c :: rest := by
  have split := fun p => List.takeWhile_append_dropWhile (p := p) (l := rest)
  unfold scan
  split <;> simp_all [quoted, verbatim, character]
  · split
    · rename_i body after h
      simp [closeQuote?_append h]
    · simp
  · split
    · rename_i after h
      simp [← h]
    · simp
  · split
    · simp
    · rename_i d after
      by_cases hs : isSpace d <;> by_cases hb : isBoundary d <;> simp [hs, hb]

theorem scan_text_ne_nil (c : Char) (rest : List Char) : (scan c rest).1.text ≠ [] := by
  unfold scan
  split <;> simp [quoted, verbatim, character]
  · split <;> simp
  · split <;> simp
  · split
    · simp
    · rename_i d after
      by_cases hs : isSpace d <;> by_cases hb : isBoundary d <;> simp [hs, hb]

theorem length_scan_lt (c : Char) (rest : List Char) :
    (scan c rest).2.length < (c :: rest).length := by
  rw [← scan_append c rest, List.length_append]
  have := List.length_pos_iff.2 (scan_text_ne_nil c rest)
  omega

end Lexeme

end Interop
