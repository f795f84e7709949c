/-! Names as they are written in source text, with an optional qualifier before a slash. -/

namespace Interop

structure Symbol where
  qualifier : Option String := none
  name : String
deriving DecidableEq, Repr, Inhabited

namespace Symbol

/-- Splits a name at its first slash. A slash at either end does not qualify a name. -/
def ofText (text : List Char) : Symbol :=
  let before := text.takeWhile (· ≠ '/')
  let after := (text.dropWhile (· ≠ '/')).drop 1
  if before.isEmpty || after.isEmpty then { name := String.ofList text }
  else { qualifier := some (String.ofList before), name := String.ofList after }

def isQualified (s : Symbol) : Bool := s.qualifier.isSome

/-- Whether the symbol is this unqualified name. -/
def isNamed (s : Symbol) (name : String) : Bool :=
  s.qualifier.isNone && s.name == name

instance : ToString Symbol where
  toString s :=
    match s.qualifier with
    | some qualifier => qualifier ++ "/" ++ s.name
    | none => s.name

end Symbol

end Interop
