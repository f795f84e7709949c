import Interop.Form.Error

/-! Tokens: the pieces of source text that forms are read from. Numbers, names, keywords and
the words `nil`, `true` and `false` are all atoms; what an atom means is decided later. -/

namespace Interop

/-- The tokens that are a datum by themselves. -/
inductive LeafKind where
  /-- A string with its quotes. -/
  | quoted
  /-- A name between bars, taken verbatim. -/
  | verbatim
  | character
  | atom
deriving DecidableEq, Repr

inductive TokenKind where
  | opening (delimiter : Delimiter)
  | closing (delimiter : Delimiter)
  | leaf (kind : LeafKind)
deriving DecidableEq, Repr

namespace TokenKind

def description : TokenKind → String
  | .opening delimiter => delimiter.opening
  | .closing delimiter => delimiter.closing
  | .leaf .quoted => "string"
  | .leaf .verbatim => "symbol"
  | .leaf .character => "character"
  | .leaf .atom => "atom"

def isClosing : TokenKind → Bool
  | .closing _ => true
  | _ => false

end TokenKind

structure Token where
  kind : TokenKind
  span : Span
  text : List Char
deriving DecidableEq, Repr

/-- One step of reading a text: a token, or what is wrong where none could be read. -/
abbrev TokenResult := Except ReadError Token

end Interop
