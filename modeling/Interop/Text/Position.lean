/-! Places in a source text. An offset counts bytes from zero; lines and columns
count from one, and a column counts bytes as well. `LineIndex` turns offsets into
positions, and `Span.context` shows the line a span starts on with carets under it. -/

namespace Interop

/-- The number of bytes a text takes in UTF-8. -/
def byteLength : List Char → Nat
  | [] => 0
  | c :: cs => c.utf8Size + byteLength cs

@[simp] theorem byteLength_nil : byteLength [] = 0 := rfl

@[simp] theorem byteLength_cons (c : Char) (cs : List Char) :
    byteLength (c :: cs) = c.utf8Size + byteLength cs := rfl

@[simp] theorem byteLength_append (a b : List Char) :
    byteLength (a ++ b) = byteLength a + byteLength b := by
  induction a with
  | nil => simp
  | cons c cs ih => simp [ih, Nat.add_assoc]

structure Position where
  line : Nat := 0
  column : Nat := 0
deriving DecidableEq, Repr

/-- A region of text: the bytes from `start` up to, but not including, `stop`. The two
positions are those of its ends. The default value marks text that has no source. -/
structure Span where
  start : Nat := 0
  stop : Nat := 0
  first : Position := {}
  last : Position := {}
deriving DecidableEq, Repr

namespace Span

/-- The region from the start of one span to the end of another. -/
def through (opening closing : Span) : Span :=
  { opening with stop := closing.stop, last := closing.last }

def length (s : Span) : Nat := s.stop - s.start

def isEmpty (s : Span) : Bool := s.stop ≤ s.start

instance : ToString Span where
  toString s := toString s.first.line ++ ":" ++ toString s.first.column

end Span

/-- The offsets at which the lines of a text start, the first line left out. -/
structure LineIndex where
  starts : List Nat := []
deriving DecidableEq, Repr

namespace LineIndex

/-- The offsets just past each newline of a text that begins at `offset`. -/
def startsFrom (offset : Nat) : List Char → List Nat
  | [] => []
  | c :: cs =>
    let next := offset + c.utf8Size
    if c = '\n' then next :: startsFrom next cs else startsFrom next cs

def ofText (text : List Char) : LineIndex := ⟨startsFrom 0 text⟩

/-- The last line that starts at or before the offset is the line it is on. Offsets past
the end of the text count as further columns of the last line. -/
def position (lines : LineIndex) (offset : Nat) : Position :=
  let before := lines.starts.takeWhile (· ≤ offset)
  { line := before.length + 1, column := offset - before.getLastD 0 + 1 }

def span (lines : LineIndex) (start stop : Nat) : Span :=
  { start, stop, first := lines.position start, last := lines.position stop }

end LineIndex

/-- The lines of a text. A line ends at a newline or at a carriage return with a newline
after it, and nothing follows a final newline. -/
def textLines (text : List Char) : List (List Char) :=
  go [] text
where
  /-- `line` holds the current line, last character first. -/
  go (line : List Char) : List Char → List (List Char)
    | [] => if line.isEmpty then [] else [line.reverse]
    | c :: cs => if c = '\n' then ended line :: go [] cs else go (c :: line) cs
  ended : List Char → List Char
    | [] => []
    | c :: line => if c = '\r' then line.reverse else (c :: line).reverse

/-- How many carets mark a span on its first line: its width when it ends there, cut at the
end of the line, but never fewer than one. -/
def Span.caretCount (s : Span) (line : List Char) : Nat :=
  let width := if s.first.line = s.last.line then max (s.last.column - s.first.column) 1 else 1
  max (min width (byteLength line - (s.first.column - 1))) 1

/-- The line the span starts on, numbered, above a line of carets. It is empty when the text
has no such line. -/
def Span.context (s : Span) (source : String) : String :=
  match (textLines source.toList)[s.first.line - 1]? with
  | none => ""
  | some line =>
    let number := toString s.first.line
    "  " ++ number ++ " | " ++ String.ofList line ++ "\n  "
      ++ String.ofList (List.replicate number.length ' ') ++ " | "
      ++ String.ofList (List.replicate (s.first.column - 1) ' ')
      ++ String.ofList (List.replicate (s.caretCount line) '^')

end Interop
