import Interop.Form.Basic
import Interop.Expr.Document

/-! Forms as documents. A form comes with its span; what it is stands under `kind`. -/

namespace Interop

/-- The numbers of a span: offsets, lines and columns, in each case that of the start first. -/
def Span.numbers (span : Span) : List Nat :=
  [span.start, span.stop, span.first.line, span.last.line, span.first.column, span.last.column]

def Symbol.document (symbol : Symbol) : Document :=
  .record [("ns", .optional .string symbol.qualifier), ("name", .string symbol.name)]

def Datum.document : Datum → Document
  | .nil => .string "Nil"
  | .bool value => .tagged "Bool" (.bool value)
  | .int value => .tagged "Int" (.int value)
  | .float value => .tagged "Float" (.float value)
  | .char value => .tagged "Char" (.string (String.singleton value))
  | .string text => .tagged "Str" (.string text)
  | .keyword name => .tagged "Keyword" name.document
  | .symbol name => .tagged "Symbol" name.document
  | .embedded type => .tagged "Embedded" type.document

namespace Form

def withSpan (kind : Document) (span : Span) : Document :=
  .record [("kind", kind), ("span", .list (span.numbers.map fun n : Nat => .int n))]

mutual

def document : Form → Document
  | .leaf datum span => withSpan datum.document span
  | .group .paren items span => withSpan (.tagged "List" (.list (documents items))) span
  | .group .bracket items span => withSpan (.tagged "Vector" (.list (documents items))) span

def documents : List Form → List Document
  | [] => []
  | form :: forms => form.document :: documents forms

end

end Form

end Interop
