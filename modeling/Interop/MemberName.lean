/-! Member names. A name in source text may hold characters that host names cannot; each of
these is spelled out. A hyphen in front of a member asks for a field or a property. -/

namespace Interop

/-- What stands in a host name for a character that cannot. -/
def spelling? : Char → Option String
  | '-' => some "_"
  | ':' => some "_COLON_"
  | '+' => some "_PLUS_"
  | '>' => some "_GT_"
  | '<' => some "_LT_"
  | '=' => some "_EQ_"
  | '~' => some "_TILDE_"
  | '!' => some "_BANG_"
  | '@' => some "_CIRCA_"
  | '#' => some "_SHARP_"
  | '\'' => some "_SINGLEQUOTE_"
  | '"' => some "_DOUBLEQUOTE_"
  | '%' => some "_PERCENT_"
  | '^' => some "_CARET_"
  | '&' => some "_AMPERSAND_"
  | '*' => some "_STAR_"
  | '|' => some "_BAR_"
  | '\x7b' => some "_LBRACE_"
  | '\x7d' => some "_RBRACE_"
  | '[' => some "_LBRACK_"
  | ']' => some "_RBRACK_"
  | '/' => some "_SLASH_"
  | '\\' => some "_BSLASH_"
  | '?' => some "_QMARK_"
  | _ => none

def spellChar (c : Char) : List Char :=
  match spelling? c with
  | some word => word.toList
  | none => [c]

/-- The host name of a member. -/
def hostMemberName (name : String) : String := String.ofList (name.toList.flatMap spellChar)

/-- Whether a member name has a hyphen in front, and the name without it. A hyphen alone is a
name. -/
def splitPropertyStyle (name : String) : Bool × String :=
  match name.toList with
  | '-' :: c :: rest => (true, String.ofList (c :: rest))
  | _ => (false, name)

end Interop
