import Interop.Form.Printer
import Interop.Expr.Basic
import Interop.Logged

/-! Analysis turns forms into expressions. It asks the host about names and members and may warn
about members that are left to run time; its log holds both, in order. -/

namespace Interop

/-- A question that was put to a host. -/
inductive Query where
  | type (name : String)
  | field (isStatic : Bool) (type : HostType) (name : String)
  | property (isStatic : Bool) (type : HostType) (name : String)
  | nullaryMethod (isStatic : Bool) (type : HostType) (name : String)
  | method (isStatic : Bool) (type : HostType) (name : String) (arity : Nat)
deriving DecidableEq, Repr

namespace Query

def memberText (isStatic : Bool) (owner : HostType) (name : String) : String :=
  (if isStatic then "static " else "instance ") ++ owner.name ++ " " ++ name

def text : Query → String
  | .type name => "type " ++ name
  | .field isStatic owner name => "field " ++ memberText isStatic owner name
  | .property isStatic owner name => "property " ++ memberText isStatic owner name
  | .nullaryMethod isStatic owner name => "method0 " ++ memberText isStatic owner name
  | .method isStatic owner name arity =>
    "method " ++ memberText isStatic owner name ++ "/" ++ toString arity

end Query

/-- What is left to be found by reflection at run time. -/
inductive Warning where
  | member (site : Site) (name : String)
  | call (site : Site) (method : String) (arity : Nat)
deriving DecidableEq, Repr

namespace Warning

def message : Warning → String
  | .member .. => "reflection warning: reference to member cannot be resolved"
  | .call .. => "reflection warning: call to method cannot be resolved"

/-- The parts of a warning as texts. -/
def fields (warning : Warning) : List (String × String) :=
  ("message", warning.message) :: match warning with
    | .member site name => [("location", toString site), ("member", name)]
    | .call site method arity =>
      [("location", toString site), ("method", method), ("arity", toString arity)]

end Warning

inductive Event where
  | query (query : Query) (hit : Bool)
  | warning (warning : Warning)
  /-- An analyzer was given a form. Only analyzers that keep track of it log this. -/
  | visit (form : Form) (assigning : Bool)

abbrev Analysis := Logged Event InteropError

/-- What forms inside a form are analyzed with. -/
abbrev Analyzer := Context → Form → Analysis Expr

namespace Context

/-- Logs a question together with whether it was answered. -/
def ask {α : Type} (query : Query) (answer : Option α) : Analysis (Option α) := do
  Logged.note (.query query answer.isSome)
  return answer

def findType? (context : Context) (name : String) : Analysis (Option HostType) :=
  ask (.type name) (context.host.type? name)

def findField? (context : Context) (isStatic : Bool) (type : HostType) (name : String) :
    Analysis (Option Field) :=
  ask (.field isStatic type name) (context.host.field? isStatic type name)

def findProperty? (context : Context) (isStatic : Bool) (type : HostType) (name : String) :
    Analysis (Option Property) :=
  ask (.property isStatic type name) (context.host.property? isStatic type name)

def findNullaryMethod? (context : Context) (isStatic : Bool) (type : HostType)
    (name : String) : Analysis (Option Method) :=
  ask (.nullaryMethod isStatic type name) (context.host.nullaryMethod? isStatic type name)

def findMethod? (context : Context) (isStatic : Bool) (type : HostType) (name : String)
    (arity : Nat) : Analysis (Option Method) :=
  ask (.method isStatic type name arity) (context.host.method? isStatic type name arity)

/-- Logs a warning if the context asks for warnings. -/
def warn (context : Context) (warning : Warning) : Analysis Unit :=
  if context.warnOnReflection then Logged.note (.warning warning) else return ()

end Context

end Interop
