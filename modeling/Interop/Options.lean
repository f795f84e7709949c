import Interop.Conversion
import Interop.Toml.Record

/-! The options of a session, from named settings or from a TOML document. -/

namespace Interop

structure Options where
  uncheckedMath : Bool := false
  warnOnReflection : Bool := false
  /-- Where to find type declarations that come on top of the built-in ones. -/
  catalogPath : Option String := none
  sourceName : String := "NO_SOURCE_FILE"
deriving DecidableEq, Repr

/-- The settings that options can be made from. -/
inductive Setting where
  | uncheckedMath
  | warnOnReflection
  | catalogPath
deriving DecidableEq, Repr

/-- The property White_Space. -/
def isWhiteSpace (c : Char) : Bool :=
  let code := c.toNat
  (9 ≤ code && code ≤ 13) || code = 0x20 || code = 0x85 || code = 0xa0 || code = 0x1680
    || (0x2000 ≤ code && code ≤ 0x200a) || code = 0x2028 || code = 0x2029 || code = 0x202f
    || code = 0x205f || code = 0x3000

/-- A text without the white space at both ends. -/
def trimWhiteSpace (text : List Char) : List Char :=
  ((text.dropWhile isWhiteSpace).reverse.dropWhile isWhiteSpace).reverse

/-- The words that switch a setting on, in letters of any case. All others leave it off. -/
def isFlagOn (text : String) : Bool :=
  String.ofList ((trimWhiteSpace text.toList).map Char.toLower) ∈ ["1", "true", "yes", "on"]

namespace Options

def overflow (options : Options) : OverflowMode := .ofUnchecked options.uncheckedMath

/-- A path of nothing but white space is no path. -/
def ofSettings (value : Setting → Option String) : Options where
  uncheckedMath := (value .uncheckedMath).any isFlagOn
  warnOnReflection := (value .warnOnReflection).any isFlagOn
  catalogPath := (value .catalogPath).filter fun path => !(trimWhiteSpace path.toList).isEmpty

/-- The options of a document; `none` when it is malformed or a value is of the wrong type. -/
def ofText? (source : String) : Option Options := do
  let slot ← Toml.slots? ["unchecked_math", "warn_on_reflection", "catalog_path", "source_name"]
    (.table (← Toml.document? source))
  return { uncheckedMath := ← (slot "unchecked_math").flag
           warnOnReflection := ← (slot "warn_on_reflection").flag
           catalogPath := ← (slot "catalog_path").optional Toml.Value.string?
           sourceName := ← (slot "source_name").withDefault ({} : Options).sourceName
             Toml.Value.string? }

end Options

end Interop
