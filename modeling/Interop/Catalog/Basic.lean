import Interop.Member
import Interop.Catalog.Declaration

/-! Catalogs of host types. A catalog always knows the primitive types, the type of no value,
`System.Object` and `System.String`; declarations add types and may give each of these its
members once. Declarations that are loaded together may refer to each other in any order. -/

namespace Interop

inductive CatalogError where
  /-- The text describes no declarations. -/
  | malformed
  | unknownType (name owner member : String)
  | duplicateType (name : String)
  | unreadable (path : String)
deriving DecidableEq, Repr

def CatalogError.message : CatalogError → String
  | .malformed => "invalid catalog"
  | .unknownType name owner member =>
    "unknown type `" ++ name ++ "` referenced by " ++ owner ++ "." ++ member
  | .duplicateType name => "type `" ++ name ++ "` is declared twice"
  | .unreadable path => "cannot read catalog " ++ path

structure CatalogEntry where
  type : HostType
  base : Option String := none
  fields : List Field := []
  properties : List Property := []
  methods : List Method := []
deriving DecidableEq, Repr

/-- Types by name. Each name occurs once among the entries; `declared` holds the names that
declarations have used up. -/
structure Catalog where
  entries : List (String × CatalogEntry)
  declared : List String
deriving DecidableEq, Repr

/-- An array name as the name of its innermost element and the number of suffixes. -/
def splitArrayName (name : String) : String × Nat :=
  let (base, rank) := go name.toList.reverse
  (String.ofList base.reverse, rank)
where
  go : List Char → List Char × Nat
    | ']' :: '[' :: rest =>
      let (base, rank) := go rest
      (base, rank + 1)
    | text => (text, 0)

/-- The array type of the given rank over an element type. -/
def HostType.arrayOf (element : HostType) : (rank : Nat) → HostType
  | 0 => element
  | rank + 1 => .array (element.arrayOf rank)

namespace Catalog

/-- The types that every catalog knows. -/
def intrinsicTypes : List HostType :=
  PrimitiveKind.all.map .primitive ++ [.void, .object, .string]

/-- A catalog without declarations. -/
def empty : Catalog where
  entries := intrinsicTypes.map fun type => (type.name, { type })
  declared := []

def entry? (catalog : Catalog) (name : String) : Option CatalogEntry :=
  catalog.entries.lookup name

/-- A name that ends in array suffixes stands for arrays of the type that is left. -/
def type? (catalog : Catalog) (name : String) : Option HostType :=
  let (base, rank) := splitArrayName name
  (catalog.entry? base).map fun entry => entry.type.arrayOf rank

def contains (catalog : Catalog) (name : String) : Bool := (catalog.type? name).isSome

/-- Puts a name in front of the first one that is not before it. -/
def insertName (name : String) : List String → List String
  | [] => [name]
  | other :: rest =>
    if name ≤ other then name :: other :: rest else other :: insertName name rest

/-- Every known name, in the order of code points. -/
def typeNames (catalog : Catalog) : List String :=
  (catalog.entries.map (·.1)).foldr insertName []

/-! ## Loading declarations -/

/-- Replaces the entry of a name, or adds one at the end. -/
def setEntry (name : String) (entry : CatalogEntry) :
    List (String × CatalogEntry) → List (String × CatalogEntry)
  | [] => [(name, entry)]
  | (other, old) :: rest =>
    if other = name then (name, entry) :: rest else (other, old) :: setEntry name entry rest

/-- Makes the name of a declaration known, so that other declarations can refer to it. -/
def register (catalog : Catalog) (decl : TypeDecl) : Except CatalogError Catalog :=
  if decl.name ∈ catalog.declared then .error (.duplicateType decl.name)
  else .ok
    { entries := setEntry decl.name { type := decl.type } catalog.entries
      declared := decl.name :: catalog.declared }

/-- The type of a name that a member of a declaration refers to. -/
def resolve (catalog : Catalog) (decl : TypeDecl) (member name : String) :
    Except CatalogError HostType :=
  match catalog.type? name with
  | some type => .ok type
  | none => .error (.unknownType name decl.name member)

/-- Stands for a member where the base of a declaration is unknown. -/
def baseMember : String := "<base>"

/-- The entry of a declaration, its names resolved in the order base, fields, properties,
methods. -/
def resolveEntry (catalog : Catalog) (decl : TypeDecl) : Except CatalogError CatalogEntry := do
  let resolve := catalog.resolve decl
  if let some base := decl.base then
    let _ ← resolve baseMember base
  let fields ← decl.fields.mapM fun field => do
    return { declaring := decl.type, name := field.name, type := ← resolve field.name field.type,
             isStatic := field.isStatic }
  let properties ← decl.properties.mapM fun property => do
    return { declaring := decl.type, name := property.name,
             type := ← resolve property.name property.type,
             isStatic := property.isStatic, writable := property.writable }
  let methods ← decl.methods.mapM fun method => do
    let params ← method.params.mapM (resolve method.name)
    let returns ← match method.returns with
      | some name => resolve method.name name
      | none => .ok .void
    return { declaring := decl.type, name := method.name, params, returns,
             isStatic := method.isStatic, genericArity := method.genericArity }
  return { type := decl.type, base := decl.base, fields, properties, methods }

def define (catalog : Catalog) (decl : TypeDecl) : Except CatalogError Catalog := do
  let entry ← catalog.resolveEntry decl
  return { catalog with entries := setEntry decl.name entry catalog.entries }

/-- Adds declarations. All names are made known before any reference is resolved. -/
def extend (catalog : Catalog) (decls : List TypeDecl) : Except CatalogError Catalog := do
  let registered ← decls.foldlM register catalog
  decls.foldlM define registered

/-- Adds the declarations of a document. In what notation it is written does not matter here: `read`
gives the declarations that it holds, or nothing when it is malformed. -/
def extendFrom (read : String → Option (List TypeDecl)) (catalog : Catalog) (source : String) :
    Except CatalogError Catalog :=
  match read source with
  | some decls => catalog.extend decls
  | none => .error .malformed

/-! ## Members -/

/-- What a type derives from when its declaration does not say: `System.Object`, save for that
type itself and the type of no value. -/
def impliedBase (type : HostType) : Option String :=
  if type = .void ∨ type = .object then none else some objectTypeName

/-- Where the members of every array type are declared. -/
def arrayTypeName : String := "System.Array"

/-- The entry of a name, then those of its bases. An entry is taken once, so a cycle of bases
ends the chain. -/
def ancestry (entries : List (String × CatalogEntry)) (name : String) : List CatalogEntry :=
  match _h : entries.find? (·.1 = name) with
  | none => []
  | some (key, entry) =>
    entry :: match entry.base <|> impliedBase entry.type with
      | none => []
      | some base => ancestry (entries.erase (key, entry)) base
termination_by entries.length
decreasing_by
  have hmem := List.mem_of_find?_eq_some ‹_›
  have hpos := List.length_pos_of_mem hmem
  rw [List.length_erase_of_mem hmem]
  omega

/-- The entries that are searched for a member of a type: those of its ancestry, and for static
members its own alone. -/
def lineage (catalog : Catalog) (isStatic : Bool) (type : HostType) : List CatalogEntry :=
  let name := match type with
    | .array _ => arrayTypeName
    | type => type.name
  if isStatic then (catalog.entry? name).toList else ancestry catalog.entries name

/-- The first member of the lineage that fits. -/
def findMember? {α : Type} (catalog : Catalog) (isStatic : Bool) (type : HostType)
    (members : CatalogEntry → List α) (fits : α → Bool) : Option α :=
  ((catalog.lineage isStatic type).flatMap members).find? fits

def field? (catalog : Catalog) (isStatic : Bool) (type : HostType) (name : String) :
    Option Field :=
  catalog.findMember? isStatic type CatalogEntry.fields fun field =>
    field.name = name && field.isStatic = isStatic

def property? (catalog : Catalog) (isStatic : Bool) (type : HostType) (name : String) :
    Option Property :=
  catalog.findMember? isStatic type CatalogEntry.properties fun property =>
    property.name = name && property.isStatic = isStatic

/-- Overloads are told apart by the number of their parameters alone. -/
def method? (catalog : Catalog) (isStatic : Bool) (type : HostType) (name : String)
    (arity : Nat) : Option Method :=
  catalog.findMember? isStatic type CatalogEntry.methods fun method =>
    method.name = name && method.isStatic = isStatic && method.arity = arity

def nullaryMethod? (catalog : Catalog) (isStatic : Bool) (type : HostType) (name : String) :
    Option Method :=
  catalog.method? isStatic type name 0

/-- The host platform that a catalog describes. -/
def host (catalog : Catalog) : Host where
  type? := catalog.type?
  field? := catalog.field?
  property? := catalog.property?
  nullaryMethod? := catalog.nullaryMethod?
  method? := catalog.method?

end Catalog

end Interop
