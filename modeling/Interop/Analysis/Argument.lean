import Interop.Analysis.TypeName

/-! The arguments of a call: type arguments in a clause of their own, arguments by value, and
local variables passed by reference. -/

namespace Interop

/-- The head of a clause of type arguments. -/
def typeArgsMarker : String := "type-args"

/-- The head of an argument that is passed by reference. -/
def byRefMarker : String := "by-ref"

/-- The type that a type argument denotes. It is written as a symbol. -/
def typeArg (context : Context) (form : Form) : Analysis HostType :=
  let invalid := InteropError.invalidTypeArg form.text form.span
  if form.symbol?.isSome then
    (tagType context form).mapError fun e => if e.isInternal then e else invalid
  else Logged.fail invalid

def typeArgs (context : Context) (forms : List Form) : Analysis (List HostType) :=
  forms.mapM (typeArg context)

/-- The local variable that a form passes by reference. -/
def byRefLocal (context : Context) (form : Form) : Except InteropError LocalBinding :=
  match form.list? with
  | some [_, operand] =>
    match operand.symbol? with
    | some symbol =>
      match context.locals.lookup? symbol with
      | some binding => .ok binding
      | none => .error (.invalidByRef (toString symbol) form.span)
    | none => .error (.invalidByRef operand.text form.span)
  | _ => .error (.invalidByRef form.text form.span)

/-- One argument. Only the target of an assignment is assigned to, so an argument is not. -/
def argument (analyze : Analyzer) (context : Context) (form : Form) :
    Analysis (Argument Expr) := do
  if form.isHeadedBy byRefMarker then
    let binding ← Logged.ofExcept (byRefLocal context form)
    return { value := .localVar binding, byRef := some binding }
  else
    return { value := ← analyze { context with assigning := false } form }

def arguments (analyze : Analyzer) (context : Context) (forms : List Form) :
    Analysis (List (Argument Expr)) :=
  forms.mapM (argument analyze context)

end Interop
