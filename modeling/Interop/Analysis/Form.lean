import Interop.Analysis.Access

/-! The analysis of any form: constants, symbols, types, member access and assignment. -/

namespace Interop

/-- The head of an assignment. -/
def assignMarker : String := "set!"

/-- A symbol is a local variable, a variable or a type, and has to be one of them. -/
def symbolExpr (context : Context) (symbol : Symbol) (span : Span) : Analysis Expr := do
  match context.locals.lookup? symbol with
  | some binding => return .localVar binding
  | none =>
    if symbol.isQualified then return .global (toString symbol)
    else match context.names.lookup? symbol.name with
      | some (.var name) => return .global name
      | some (.type type) => return .typeRef type
      | none =>
        match ← symbolType? context symbol span with
        | some type => return .typeRef type
        | none => Logged.fail (.unresolvedSymbol (toString symbol) span)

/-- A datum that is neither a symbol nor a type is a constant. -/
def datumExpr (context : Context) (span : Span) : Datum → Analysis Expr
  | .nil => return .constant .nil
  | .bool value => return .constant (.bool value)
  | .int value => return .constant (.int value)
  | .float value => return .constant (.float value)
  | .char value => return .constant (.char value)
  | .string text => return .constant (.string text)
  | .keyword name => return .constant (.keyword (toString name))
  | .embedded type => return .typeRef type
  | .symbol symbol => symbolExpr context symbol span

/-- `(set! (. target member) value)`. The value is analyzed only when the target can be
assigned. -/
def assignExpr (analyze : Analyzer) (context : Context) (items : List Form) (span : Span) :
    Analysis Expr :=
  match items with
  | [_, target, value] => do
    if !target.isHeadedBy accessMarker then
      Logged.fail (.invalidAssignTarget target.text target.span)
    else
      let node ← analyzeAccess analyze { context with assigning := true } target
      if !node.isAssignable then Logged.fail (node.invalidTarget target.span)
      else
        let value ← analyze { context with assigning := false } value
        return .assign node value context.overflow (context.site span)
  | _ => Logged.fail (.malformedForm .assignment span)

/-- One layer of analysis; the forms inside are left to `analyze`. -/
def analyzeStep (analyze : Analyzer) (context : Context) (form : Form) : Analysis Expr :=
  match form with
  | .leaf datum span => datumExpr context span datum
  | .group _ items span => do
    if form.isHeadedBy accessMarker then return .access (← analyzeAccess analyze context form)
    else if form.isHeadedBy assignMarker then assignExpr analyze context items span
    else Logged.fail (.unsupportedForm form.text span)

/-- Analysis of forms up to a depth. -/
def analyzeUpTo : (depth : Nat) → Analyzer
  | 0 => analyzeStep fun _ form => Logged.fail (.unsupportedForm form.text form.span)
  | depth + 1 => analyzeStep (analyzeUpTo depth)

/-- The expression that a form means in a context. A form inside another is less deep, so the
depth of the whole bounds the recursion. -/
def analyze : Analyzer := fun context form => analyzeUpTo form.depth context form

end Interop
