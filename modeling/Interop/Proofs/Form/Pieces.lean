import Interop.Form.Leaf
import Interop.Proofs.Token.Place

/-! Forms as flat lists of pieces. The pieces of a group are its opening delimiter, those of its
items and its closing delimiter; a datum is a piece by itself. A token is a piece as well, unless
it is a leaf that means nothing. -/

namespace Interop

/-- A delimiter or a datum, with its place in the text. -/
inductive Piece where
  | opening (delimiter : Delimiter) (span : Span)
  | closing (delimiter : Delimiter) (span : Span)
  | leaf (datum : Datum) (span : Span)

namespace Form

mutual

/-- A form from left to right. Its delimiters are the first and the last byte of its span. -/
def pieces : Form → List Piece
  | .leaf datum span => [.leaf datum span]
  | .group delimiter items span =>
    .opening delimiter span.firstByte :: (piecesList items ++ [.closing delimiter span.lastByte])

def piecesList : List Form → List Piece
  | [] => []
  | form :: forms => form.pieces ++ piecesList forms

end

@[simp] theorem piecesList_append (a b : List Form) :
    piecesList (a ++ b) = piecesList a ++ piecesList b := by
  induction a with
  | nil => rfl
  | cons form forms ih => simp [piecesList, ih]

@[simp] theorem piecesList_singleton (form : Form) : piecesList [form] = form.pieces := by
  simp [piecesList]

end Form

/-- The piece of a form that a token is; `none` for a leaf without a datum. -/
def Token.piece? (token : Token) : Option Piece :=
  match token.kind with
  | .opening delimiter => some (.opening delimiter token.span)
  | .closing delimiter => some (.closing delimiter token.span)
  | .leaf kind => (kind.datum token.text).toOption.map fun datum => .leaf datum token.span

namespace TokenResult

def piece? : TokenResult → Option Piece
  | .ok token => token.piece?
  | .error _ => none

/-- Whether an item is an error, a leaf, or a delimiter of one byte. -/
def InPlace (item : TokenResult) : Prop :=
  ∀ token, item = .ok token → (∃ leaf, token.kind = .leaf leaf) ∨ token.span.IsByte

theorem inPlace_of_mem_tokenize {source : String} {item : TokenResult}
    (h : item ∈ tokenize source) : item.InPlace := by
  rintro token rfl
  exact isByte_of_mem_tokenize h

end TokenResult

end Interop
