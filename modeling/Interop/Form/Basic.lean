import Interop.Text.Position
import Interop.Symbol
import Interop.HostType.Basic

/-! Forms: what source text reads as. A form is a single datum or a group of forms between
delimiters, and every form knows its place in the text. -/

namespace Interop

inductive Delimiter where
  | paren
  | bracket
deriving DecidableEq, Repr

namespace Delimiter

def opening : Delimiter → String
  | .paren => "("
  | .bracket => "["

def closing : Delimiter → String
  | .paren => ")"
  | .bracket => "]"

end Delimiter

inductive Datum where
  | nil
  | bool (value : Bool)
  | int (value : Int)
  | float (value : Float)
  | char (value : Char)
  | string (text : String)
  | keyword (name : Symbol)
  | symbol (name : Symbol)
  /-- A resolved type put in place of a symbol. Reading never gives one. -/
  | embedded (type : HostType)
deriving DecidableEq, Inhabited

/-- A group in parentheses is a list, and one in brackets a vector. -/
inductive Form where
  | leaf (datum : Datum) (span : Span)
  | group (delimiter : Delimiter) (items : List Form) (span : Span)

namespace Form

def span : Form → Span
  | .leaf _ span => span
  | .group _ _ span => span

def symbol? : Form → Option Symbol
  | .leaf (.symbol name) _ => some name
  | _ => none

/-- The items of a list. -/
def list? : Form → Option (List Form)
  | .group .paren items _ => some items
  | _ => none

def string? : Form → Option String
  | .leaf (.string text) _ => some text
  | _ => none

def embedded? : Form → Option HostType
  | .leaf (.embedded type) _ => some type
  | _ => none

/-- The symbol at the head of a list. -/
def head? (form : Form) : Option Symbol := do
  let items ← form.list?
  let first ← items.head?
  first.symbol?

/-- Whether the form is a list whose head is this unqualified name. -/
def isHeadedBy (form : Form) (name : String) : Bool := form.head?.any (·.isNamed name)

mutual

/-- The number of groups around the innermost datum. -/
def depth : Form → Nat
  | .leaf _ _ => 0
  | .group _ items _ => depthList items + 1

def depthList : List Form → Nat
  | [] => 0
  | form :: forms => max form.depth (depthList forms)

end

mutual

/-- Puts types in the place of symbols, by the name of the symbol without its qualifier. -/
def embed (types : String → Option HostType) : Form → Form
  | .leaf (.symbol name) span =>
    match types name.name with
    | some type => .leaf (.embedded type) span
    | none => .leaf (.symbol name) span
  | .leaf datum span => .leaf datum span
  | .group delimiter items span => .group delimiter (embedList types items) span

def embedList (types : String → Option HostType) : List Form → List Form
  | [] => []
  | form :: forms => form.embed types :: embedList types forms

end

end Form

end Interop
