import Interop.Analysis.Basic
import Interop.HostType.Tag

/-! Which type a form denotes. Most symbols denote none, and that is no error; a name with a
point or an array suffix has to be a type. -/

namespace Interop

/-- Whether a name has a point, and its first one not at the start. -/
def isDotted (name : String) : Bool :=
  name.toList.contains '.' && name.toList.head? ≠ some '.'

/-- An array name: a base with a number of suffixes. -/
def arrayName (base : String) : (rank : Nat) → String
  | 0 => base
  | rank + 1 => arrayName base rank ++ arraySuffix

/-- The type that a base with array suffixes has to denote. The host is asked first; else the
innermost element may be a primitive tag or an alias, but not when the name is dotted. -/
def lookupArray (context : Context) (span : Span) (base : String) :
    (rank : Nat) → Analysis HostType
  | 0 => do
    match ← context.findType? base with
    | some type => return type
    | none => Logged.fail (.unresolvedType base span)
  | rank + 1 => do
    match ← context.findType? (arrayName base (rank + 1)) with
    | some type => return type
    | none =>
      let element := arrayName base rank
      match primitiveTag? element with
      | some type => return .array type
      | none =>
        if isDotted element || 0 < rank then
          return .array (← lookupArray context span base rank)
        else match context.names.lookup? element with
          | some (.type type) => return .array type
          | _ => Logged.fail (.unresolvedType (arrayName base (rank + 1)) span)

/-- The type that a name has to denote. -/
def lookupType (context : Context) (name : String) (span : Span) : Analysis HostType :=
  let (base, rank) := splitArrayName name
  lookupArray context span base rank

/-- The type that a symbol denotes, if any. A local variable hides every type of its name. -/
def symbolType? (context : Context) (symbol : Symbol) (span : Span) :
    Analysis (Option HostType) := do
  if context.locals.binds symbol || symbol.isQualified then return none
  else if isDotted symbol.name || 0 < (splitArrayName symbol.name).2 then
    return some (← lookupType context symbol.name span)
  else match context.names.lookup? symbol.name with
    | some (.type type) => return some type
    | some (.var _) => return none
    | none => context.findType? symbol.name

/-- The type that a form denotes, if any. A string may name a type where it is allowed to. -/
def formType? (context : Context) (allowString : Bool) (form : Form) :
    Analysis (Option HostType) :=
  match form with
  | .leaf (.embedded type) _ => return some type
  | .leaf (.symbol symbol) span => symbolType? context symbol span
  | .leaf (.string name) span =>
    if allowString then return some (← lookupType context name span) else return none
  | _ => return none

/-- The type that a form has to denote where only types can stand. Primitive tags come before
everything else. -/
def tagType (context : Context) (form : Form) : Analysis HostType :=
  let tag? := form.symbol?.bind fun symbol =>
    if symbol.isQualified then none else primitiveTag? symbol.name
  match tag? with
  | some type => return type
  | none => do
    match ← formType? context true form with
    | some type => return type
    | none => Logged.fail (.unresolvedType form.text form.span)

end Interop
