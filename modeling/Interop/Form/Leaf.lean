import Interop.Token.Basic
import Interop.Decimal.Literal

/-! What a token means when it is a datum by itself. Integers have 64 bits, and arithmetic on them is
that of a build without overflow checks: it wraps around. -/

namespace Interop

/-- Whether an atom is read as a number: a digit comes first, after one sign at most. -/
def looksNumeric (text : List Char) : Bool :=
  (splitSign text).2.head?.any Char.isDigit

/-- The hexadecimal part of a number that starts with `0x` or `0X` after its sign. -/
def hexadecimal? : List Char → Option (List Char)
  | '0' :: 'x' :: digits => some digits
  | '0' :: 'X' :: digits => some digits
  | _ => none

/-- The number an atom writes. A point or an exponent makes it a double. The digits of a hexadecimal
number may bring a sign of their own, and they have to fit before a minus sign in front negates them.
So `-0x8000000000000000` is no number, and `-0x-8000000000000000` is the least integer, whose negative
wraps around. -/
def number? (text : List Char) : Option Datum :=
  let (negative, unsigned) := splitSign text
  match hexadecimal? unsigned with
  | some digits =>
    let value := (signedLiteral? 16 digits).map fun n => if negative then wrappingNeg n else n
    value.map .int
  | none =>
    if unsigned.any fun c => c = '.' || c = 'e' || c = 'E' then
      (decimalLiteral? text).map .float
    else (signedLiteral? 10 text).map .int

/-- A constant, a keyword, a number or a symbol. -/
def atomDatum (text : List Char) : Except ReadFault Datum :=
  if text = ['n', 'i', 'l'] then .ok .nil
  else if text = ['t', 'r', 'u', 'e'] then .ok (.bool true)
  else if text = ['f', 'a', 'l', 's', 'e'] then .ok (.bool false)
  else
    match text with
    | [':'] => .error (.unexpectedToken ":")
    | ':' :: name => .ok (.keyword (.ofText name))
    | _ =>
      if looksNumeric text then
        match number? text with
        | some datum => .ok datum
        | none => .error (.invalidNumber (String.ofList text))
      else .ok (.symbol (.ofText text))

/-- The character after a backslash, or the one that a name stands for. -/
def characterDatum (text : List Char) : Except ReadFault Datum :=
  match text.drop 1 with
  | [c] => .ok (.char c)
  | body =>
    if body = ['n', 'e', 'w', 'l', 'i', 'n', 'e'] then .ok (.char '\n')
    else if body = ['s', 'p', 'a', 'c', 'e'] then .ok (.char ' ')
    else if body = ['t', 'a', 'b'] then .ok (.char '\t')
    else .error (.invalidCharacter (String.ofList text))

/-- The character that a backslash and another character stand for inside a string. -/
def escapedChar? : Char → Option Char
  | 'n' => some '\n'
  | 't' => some '\t'
  | 'r' => some '\r'
  | '0' => some '\x00'
  | '\\' => some '\\'
  | '"' => some '"'
  | _ => none

/-- The text between quotes with its escapes replaced. -/
def unescape : List Char → Except ReadFault (List Char)
  | [] => .ok []
  | ['\\'] => .error (.invalidEscape "\\")
  | '\\' :: c :: rest =>
    match escapedChar? c with
    | some meant => (unescape rest).map (meant :: ·)
    | none => .error (.invalidEscape (String.ofList ['\\', c]))
  | c :: rest => (unescape rest).map (c :: ·)

/-- The text of a token without its first and last character. -/
def betweenMarks (text : List Char) : List Char := (text.drop 1).dropLast

/-- The datum that a leaf token means. -/
def LeafKind.datum (text : List Char) : LeafKind → Except ReadFault Datum
  | .quoted => (unescape (betweenMarks text)).map fun body => .string (String.ofList body)
  | .verbatim => .ok (.symbol { name := String.ofList (betweenMarks text) })
  | .character => characterDatum text
  | .atom => atomDatum text

end Interop
