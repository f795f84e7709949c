import Interop.Form.Basic

/-! Why a text could not be read, and where. -/

namespace Interop

/-- What stands in front of a form that should not be there. -/
inductive FormShape where
  | list
  | vector
  | symbol
  | literal
deriving DecidableEq, Repr

def FormShape.text : FormShape → String
  | .list => "list"
  | .vector => "vector"
  | .symbol => "symbol"
  | .literal => "literal"

def Form.shape : Form → FormShape
  | .group .paren _ _ => .list
  | .group .bracket _ _ => .vector
  | .leaf (.symbol _) _ => .symbol
  | .leaf _ _ => .literal

inductive ReadFault where
  /-- The text ends inside a group. -/
  | unclosed (delimiter : Delimiter)
  /-- The text holds no form. -/
  | missingForm
  /-- A token that cannot stand where it does. -/
  | unexpectedToken (text : String)
  /-- A second form where one was asked for. -/
  | trailingForm (first : FormShape)
  | unterminatedString
  | invalidEscape (escape : String)
  | invalidNumber (literal : String)
  | invalidCharacter (literal : String)
  /-- Text that starts no token. -/
  | unrecognized
deriving DecidableEq, Repr

structure ReadError where
  fault : ReadFault
  span : Span
deriving DecidableEq, Repr

namespace ReadError

def message (e : ReadError) : String :=
  let place := toString e.span
  match e.fault with
  | .unclosed delimiter =>
    "unexpected end of input at " ++ place ++ ", expected '" ++ delimiter.closing ++ "'"
  | .missingForm => "unexpected end of input at " ++ place ++ ", expected a form"
  | .unexpectedToken text => "unexpected '" ++ text ++ "' at " ++ place
  | .trailingForm first => "unexpected 'trailing form after " ++ first.text ++ "' at " ++ place
  | .unterminatedString => "unterminated string literal starting at " ++ place
  | .invalidEscape escape => "invalid escape sequence '" ++ escape ++ "' at " ++ place
  | .invalidNumber literal => "invalid number literal '" ++ literal ++ "' at " ++ place
  | .invalidCharacter literal => "invalid character literal '" ++ literal ++ "' at " ++ place
  | .unrecognized => "unrecognized token at " ++ place

/-- The line of the source the error is on, with carets. -/
def context (e : ReadError) (source : String) : String := e.span.context source

end ReadError

end Interop
