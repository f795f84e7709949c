/-! The values of a TOML document. -/

namespace Interop.Toml

inductive Value where
  | string (text : String)
  /-- From the least signed to the greatest unsigned number of 128 bits. -/
  | integer (value : Int)
  | float (value : Float)
  /-- What is written like a number but stands for none, or for one that is too large for an
  integer or a float. A document may hold it, as long as nobody reads it. -/
  | unreadable
  | boolean (value : Bool)
  | datetime (text : String)
  | array (items : List Value)
  | table (entries : List (String × Value))

namespace Value

/-- An integer, as far as 128 bits have it. -/
def ofInt (value : Int) : Value :=
  if -0x80000000000000000000000000000000 ≤ value
      ∧ value < 0x100000000000000000000000000000000 then .integer value
  else .unreadable

/-- The double nearest to a decimal literal, as far as it is finite. -/
def ofFloat (nearest : Float) : Value := if nearest.isInf then .unreadable else .float nearest

def string? : Value → Option String
  | .string text => some text
  | _ => none

def integer? : Value → Option Int
  | .integer value => some value
  | _ => none

def boolean? : Value → Option Bool
  | .boolean value => some value
  | _ => none

def array? : Value → Option (List Value)
  | .array items => some items
  | _ => none

mutual

/-- Whether every number inside a value can be read. -/
def isReadable : Value → Bool
  | .unreadable => false
  | .array items => areReadable items
  | .table entries => entriesReadable entries
  | _ => true

def areReadable : List Value → Bool
  | [] => true
  | item :: rest => item.isReadable && areReadable rest

def entriesReadable : List (String × Value) → Bool
  | [] => true
  | (_, value) :: rest => value.isReadable && entriesReadable rest

end

end Value

/-- A function that reads from the start of a text and gives what it read with the rest. -/
abbrev Reader (α : Type) := List Char → Option (α × List Char)

end Interop.Toml
