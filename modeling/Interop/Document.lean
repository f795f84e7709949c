import Interop.Decimal.Layout

/-! Documents for other programs: nested lists and records, written as JSON. The fields of a
record keep their order. -/

namespace Interop

inductive Document where
  | null
  | bool (value : Bool)
  | int (value : Int)
  | float (value : Float)
  | string (text : String)
  | list (items : List Document)
  | record (fields : List (String × Document))

namespace Document

/-- A control character without an escape of its own is written as four hexadecimal digits. -/
def escapeChar (c : Char) : List Char :=
  if c = '"' then ['\\', '"']
  else if c = '\\' then ['\\', '\\']
  else if c = '\n' then ['\\', 'n']
  else if c = '\r' then ['\\', 'r']
  else if c = '\t' then ['\\', 't']
  else if c = '\x08' then ['\\', 'b']
  else if c = '\x0c' then ['\\', 'f']
  else if c.toNat < 0x20 then
    let digits := Nat.toDigits 16 c.toNat
    '\\' :: 'u' :: (List.replicate (4 - digits.length) '0' ++ digits)
  else [c]

def quote (text : String) : String :=
  String.ofList ('"' :: text.toList.flatMap escapeChar ++ ['"'])

/-- The text of a document that is neither a list nor a record with something in it. There is
no number for an infinite value. -/
def leafText : Document → String
  | .null => "null"
  | .bool value => if value then "true" else "false"
  | .int value => toString value
  | .float value => if isUnbounded value then "null" else FloatLayout.document.text value
  | .string text => quote text
  | .list _ => "[]"
  | .record _ => "\x7b\x7d"

def lineBreak (depth : Nat) : String := "\n" ++ String.ofList (List.replicate (2 * depth) ' ')

mutual

/-- The text of a document over several lines, each level indented by two spaces. -/
def pretty (depth : Nat) : Document → String
  | .list (item :: items) =>
    "[" ++ lineBreak (depth + 1) ++ item.pretty (depth + 1) ++ prettyItems (depth + 1) items
      ++ lineBreak depth ++ "]"
  | .record ((name, value) :: fields) =>
    "\x7b" ++ lineBreak (depth + 1) ++ quote name ++ ": " ++ value.pretty (depth + 1)
      ++ prettyFields (depth + 1) fields ++ lineBreak depth ++ "\x7d"
  | document => document.leafText

def prettyItems (depth : Nat) : List Document → String
  | [] => ""
  | item :: items => "," ++ lineBreak depth ++ item.pretty depth ++ prettyItems depth items

def prettyFields (depth : Nat) : List (String × Document) → String
  | [] => ""
  | (name, value) :: fields =>
    "," ++ lineBreak depth ++ quote name ++ ": " ++ value.pretty depth
      ++ prettyFields depth fields

end

def text (document : Document) : String := document.pretty 0

/-- A record with one field, which says what kind of thing the value is. -/
def tagged (tag : String) (value : Document) : Document := .record [(tag, value)]

def optional {α : Type} (write : α → Document) : Option α → Document
  | some a => write a
  | none => .null

end Document

end Interop
