import Interop.Catalog.Basic
import Interop.Conversion
import Interop.Symbol

/-! What names mean around a form: the aliases of a namespace, the local bindings, and the
rest of the context a form is analyzed in. -/

namespace Interop

inductive Mapping where
  | type (type : HostType)
  /-- A variable of a namespace, by its qualified name. -/
  | var (name : String)
deriving DecidableEq, Repr

/-- A namespace with its aliases, last one first. A later alias hides an earlier one. -/
structure Namespace where
  name : String
  mappings : List (String × Mapping) := []
deriving DecidableEq, Repr

namespace Namespace

def lookup? (names : Namespace) (name : String) : Option Mapping := names.mappings.lookup name

def addAlias (names : Namespace) (short : String) (type : HostType) : Namespace :=
  { names with mappings := (short, .type type) :: names.mappings }

def addVar (names : Namespace) (var : String) : Namespace :=
  { names with mappings := (var, .var (names.name ++ "/" ++ var)) :: names.mappings }

/-- The last part of the name of a type that lies directly in `System`. -/
def systemShortName? (name : String) : Option String :=
  let text := name.toList
  let short := text.drop "System.".length
  if text.take "System.".length = "System.".toList && !short.contains '.' then
    some (String.ofList short)
  else none

/-- A namespace with an alias for every type that lies directly in `System`. -/
def withSystemTypes (name : String) (catalog : Catalog) : Namespace :=
  catalog.typeNames.foldl addSystemType { name }
where
  addSystemType (names : Namespace) (typeName : String) : Namespace :=
    match systemShortName? typeName, catalog.type? typeName with
    | some short, some type => names.addAlias short type
    | _, _ => names

end Namespace

/-- A local variable. The index is its slot, and the tag its declared type. -/
structure LocalBinding where
  name : String
  index : Nat
  tag : Option HostType := none
deriving DecidableEq, Repr

/-- The local bindings at a place, innermost first. -/
structure LexicalEnv where
  bindings : List LocalBinding := []
deriving DecidableEq, Repr

namespace LexicalEnv

def size (env : LexicalEnv) : Nat := env.bindings.length

/-- Adds an innermost binding. Slots are numbered from the outermost one. -/
def bind (env : LexicalEnv) (name : String) (tag : Option HostType) : LexicalEnv :=
  { bindings := { name, index := env.size, tag } :: env.bindings }

/-- The innermost binding of a symbol. A qualified symbol names no local variable. -/
def lookup? (env : LexicalEnv) (symbol : Symbol) : Option LocalBinding :=
  if symbol.isQualified then none else env.bindings.find? (·.name = symbol.name)

def binds (env : LexicalEnv) (symbol : Symbol) : Bool := (env.lookup? symbol).isSome

end LexicalEnv

/-- A place in a named source. -/
structure Site where
  source : String
  span : Span
deriving DecidableEq, Repr

instance : ToString Site where
  toString site := site.source ++ ":" ++ toString site.span

structure Context where
  host : Host
  names : Namespace
  locals : LexicalEnv := {}
  overflow : OverflowMode := .checked
  source : String
  /-- The form is the target of an assignment. -/
  assigning : Bool := false
  warnOnReflection : Bool := false

def Context.site (context : Context) (span : Span) : Site := { source := context.source, span }

end Interop
