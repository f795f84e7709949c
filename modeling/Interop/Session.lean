import Interop.Form.Reader
import Interop.Analysis.Form
import Interop.Expr.Document
import Interop.Code.Emission
import Interop.Catalog.Builtin
import Interop.Catalog.Document
import Interop.Options

/-! Sessions: options, a catalog and a namespace, and what is done in them with source text. -/

namespace Interop

/-- The version of this library and of the reader in it. -/
def version : String := "0.1.0"

/-- Any failure of a session. -/
inductive SessionError where
  | read (error : ReadError)
  | interop (error : InteropError)
  | catalog (error : CatalogError)
deriving DecidableEq, Repr

namespace SessionError

def message : SessionError → String
  | .read e => "read error: " ++ e.message
  | .interop e => "interop error: " ++ e.message
  | .catalog e => "catalog error: " ++ e.message

def span? : SessionError → Option Span
  | .read e => some e.span
  | .interop e => e.span?
  | .catalog _ => none

/-- The message, and under it the line of the source when the error has a place there. -/
def report (e : SessionError) (source : String) : String :=
  match e.span? with
  | some span => e.message ++ "\n" ++ span.context source
  | none => e.message

end SessionError

structure Session where
  options : Options
  catalog : Catalog
  names : Namespace

namespace Session

def ofCatalog (options : Options) (catalog : Catalog) : Session :=
  { options, catalog, names := .withSystemTypes "user" catalog }

/-- Adds the declarations at a path; `readText` gives the text there. -/
def extendFromPath (readText : String → Option String) (catalog : Catalog) (path : String) :
    Except CatalogError Catalog :=
  match readText path with
  | some source => catalog.extendFromText source
  | none => .error (.unreadable path)

/-- A session over the built-in declarations and those at the path of the options. -/
def start (readText : String → Option String) (options : Options) :
    Except SessionError Session :=
  let loaded := match options.catalogPath with
    | some path => extendFromPath readText .builtin path
    | none => .ok .builtin
  match loaded with
  | .ok catalog => .ok (ofCatalog options catalog)
  | .error e => .error (.catalog e)

/-- The context of a form that is not inside another. -/
def context (session : Session) (locals : LexicalEnv) : Context where
  host := session.catalog.host
  names := session.names
  locals := locals
  overflow := session.options.overflow
  source := session.options.sourceName
  warnOnReflection := session.options.warnOnReflection

def analyzeForm (session : Session) (locals : LexicalEnv) (form : Form) :
    Except SessionError Expr :=
  (analyze (session.context locals) form).result.mapError .interop

/-- The expression of the only form of a source text. -/
def analyzeText (session : Session) (locals : LexicalEnv) (source : String) :
    Except SessionError Expr := do
  let form ← (readOne source).mapError .read
  session.analyzeForm locals form

/-- The instructions of the only form of a source text. -/
def emitText (session : Session) (locals : LexicalEnv) (source : String) :
    Except SessionError (List Instr) := do
  let expr ← session.analyzeText locals source
  expr.code.mapError .interop

/-- The expression of a source text as a document. -/
def dumpText (session : Session) (source : String) : Except SessionError String := do
  let expr ← session.analyzeText {} source
  return expr.document.text

end Session

end Interop
