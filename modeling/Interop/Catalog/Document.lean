import Interop.Catalog.Basic
import Interop.Toml.Record

/-! Type declarations as TOML documents: a list `types` of records, each with lists of fields,
properties and methods. This is the notation in use; the theory of catalogs is about any. -/

namespace Interop

open Toml (Value slots?)

/-- A word, or a table with the word as its only key and nothing inside. -/
def declaredKind? : Value → Option DeclaredKind
  | .string word => ofWord word
  | .table [(word, .table [])] => ofWord word
  | .table [(word, .array [])] => ofWord word
  | _ => none
where
  ofWord (word : String) : Option DeclaredKind :=
    if word = "class" then some .reference
    else if word = "struct" then some .value
    else none

def count? (value : Value) : Option Nat := do
  let n ← value.integer?
  if 0 ≤ n ∧ n < 0x10000000000000000 then some n.toNat else none

def fieldDecl? (value : Value) : Option FieldDecl := do
  let slot ← slots? ["name", "type", "static"] value
  return { name := ← (slot "name").required Value.string?
           type := ← (slot "type").required Value.string?
           isStatic := ← (slot "static").flag }

def propertyDecl? (value : Value) : Option PropertyDecl := do
  let slot ← slots? ["name", "type", "static", "writable"] value
  return { name := ← (slot "name").required Value.string?
           type := ← (slot "type").required Value.string?
           isStatic := ← (slot "static").flag
           writable := ← (slot "writable").flag }

def methodDecl? (value : Value) : Option MethodDecl := do
  let slot ← slots? ["name", "params", "returns", "static", "generic_arity"] value
  return { name := ← (slot "name").required Value.string?
           params := ← (slot "params").list Value.string?
           returns := ← (slot "returns").optional Value.string?
           isStatic := ← (slot "static").flag
           genericArity := ← (slot "generic_arity").withDefault 0 count? }

def typeDecl? (value : Value) : Option TypeDecl := do
  let slot ← slots? ["name", "kind", "base", "fields", "properties", "methods"] value
  return { name := ← (slot "name").required Value.string?
           kind := ← (slot "kind").withDefault .reference declaredKind?
           base := ← (slot "base").optional Value.string?
           fields := ← (slot "fields").list fieldDecl?
           properties := ← (slot "properties").list propertyDecl?
           methods := ← (slot "methods").list methodDecl? }

/-- The declarations that a document holds, in its order. -/
def declarations? (source : String) : Option (List TypeDecl) := do
  let slot ← slots? ["types"] (.table (← Toml.document? source))
  (slot "types").list typeDecl?

namespace Catalog

/-- Adds the declarations of a TOML document. -/
def extendFromText (catalog : Catalog) (source : String) : Except CatalogError Catalog :=
  catalog.extendFrom declarations? source

end Catalog

end Interop
