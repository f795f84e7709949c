import Interop.Text.Property

/-! Quoted text. Inside quotes a backslash, the enclosing quote, NUL, tab, carriage return and
newline are written with a backslash and one character. A character without a printed shape,
or one that would combine with its neighbour, is written as its code point in hexadecimal. -/

namespace Interop

/-- A code point in hexadecimal between braces, after a backslash and `u`. -/
def codePointEscape (c : Char) : List Char :=
  ['\\', 'u', '\x7b'] ++ Nat.toDigits 16 c.toNat ++ ['\x7d']

/-- How a character is written between two of the given quotes. -/
def escapeChar (quote c : Char) : List Char :=
  if c = '\x00' then ['\\', '0']
  else if c = '\t' then ['\\', 't']
  else if c = '\r' then ['\\', 'r']
  else if c = '\n' then ['\\', 'n']
  else if c = '\\' || c = quote then ['\\', c]
  else if c.toNat < 0x7f && 0x20 ≤ c.toNat then [c]
  else if isCombining c || isShapeless c then codePointEscape c
  else [c]

def quotedText (text : String) : String :=
  String.ofList ('"' :: text.toList.flatMap (escapeChar '"') ++ ['"'])

def quotedChar (c : Char) : String :=
  String.ofList ('\'' :: escapeChar '\'' c ++ ['\''])

end Interop
