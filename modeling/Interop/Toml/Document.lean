import Interop.Toml.Scalar

/-! Whole TOML documents: keys, arrays, inline tables, and the tables that headers and dotted
keys define. A key may be defined once. A header may open a table that so far exists only
because a longer header named it. Dotted keys may go through such a table, and through the last
element of a series, but they put values only into tables that dotted keys made. -/

namespace Interop.Toml

/-! ## Tables under construction -/

/-- What defined a table. -/
inductive Origin where
  /-- It is on the path of a header. -/
  | path
  | header
  | dottedKey
deriving DecidableEq

/-- A part of a document. The elements of a series are the tables that one repeated header
opened, last one first. -/
inductive Node where
  | value (value : Value)
  | table (origin : Origin) (entries : List (String × Node))
  | series (elements : List (List (String × Node)))

abbrev Entries := List (String × Node)

def setEntry (key : String) (node : Node) : Entries → Entries
  | [] => [(key, node)]
  | (other, old) :: rest =>
    if other = key then (key, node) :: rest else (other, old) :: setEntry key node rest

/-- Defines a key below a table; all but its last part name tables. `isOpen` tells whether the
table itself takes values. -/
def assignBelow (value : Value) : Bool → List String → Entries → Option Entries
  | _, [], _ => none
  | isOpen, [key], entries =>
    if isOpen && (entries.lookup key).isNone then some (setEntry key (.value value) entries)
    else none
  | _, key :: path, entries =>
    match entries.lookup key with
    | none => (assignBelow value true path []).map fun inner =>
      setEntry key (.table .dottedKey inner) entries
    | some (.table .header _) => none
    | some (.table origin inner) => (assignBelow value (origin = .dottedKey) path inner).map
      fun inner => setEntry key (.table origin inner) entries
    | some (.series (last :: others)) => (assignBelow value false path last).map fun inner =>
      setEntry key (.series (inner :: others)) entries
    | some _ => none

/-- Defines a key inside a table. -/
def assign (value : Value) (key : List String) (entries : Entries) : Option Entries :=
  assignBelow value true key entries

/-- Changes the table at the end of a path. A series stands for its last element, and tables
that are missing are made. -/
def atPath (change : Entries → Option Entries) : List String → Entries → Option Entries
  | [], entries => change entries
  | key :: path, entries =>
    match entries.lookup key with
    | none => (atPath change path []).map fun inner => setEntry key (.table .path inner) entries
    | some (.table origin inner) => (atPath change path inner).map fun inner =>
      setEntry key (.table origin inner) entries
    | some (.series (last :: others)) => (atPath change path last).map fun inner =>
      setEntry key (.series (inner :: others)) entries
    | some _ => none

def openTable (key : String) (entries : Entries) : Option Entries :=
  match entries.lookup key with
  | none => some (setEntry key (.table .header []) entries)
  | some (.table .path inner) => some (setEntry key (.table .header inner) entries)
  | some _ => none

def openSeries (key : String) (entries : Entries) : Option Entries :=
  match entries.lookup key with
  | none => some (setEntry key (.series [[]]) entries)
  | some (.series elements) => some (setEntry key (.series ([] :: elements)) entries)
  | some _ => none

mutual

def Node.toValue : Node → Value
  | .value value => value
  | .table _ entries => .table (entriesValue entries)
  | .series elements => .array (elementValues elements).reverse

def entriesValue : List (String × Node) → List (String × Value)
  | [] => []
  | (key, node) :: rest => (key, node.toValue) :: entriesValue rest

def elementValues : List (List (String × Node)) → List Value
  | [] => []
  | entries :: rest => .table (entriesValue entries) :: elementValues rest

end

/-! ## Keys and values -/

def isBareKeyPart (c : Char) : Bool := c.isAlphanum || c = '_' || c = '-'

def keyPart? (text : List Char) : Option (String × List Char) :=
  match text with
  | '"' :: _ | '\'' :: _ => lineString? text
  | _ =>
    let key := text.takeWhile isBareKeyPart
    if key.isEmpty then none else some (String.ofList key, text.dropWhile isBareKeyPart)

/-- How many parts a key may have, and how deep arrays and inline tables may be nested. -/
def depthLimit : Nat := 80

/-- The parts of a key, with points between them, at most as many as given. -/
def keyParts? : Nat → Reader (List String)
  | 0, _ => none
  | count + 1, text => do
    let (part, rest) ← keyPart? (skipSpaces text)
    match skipSpaces rest with
    | '.' :: rest => do
      let (parts, rest) ← keyParts? count rest
      return (part :: parts, rest)
    | rest => some ([part], rest)

def key? : Reader (List String) := keyParts? depthLimit

/-- The items of an array up to its end. The fuel bounds their number. -/
def items? (item? : Reader Value) : Nat → Reader (List Value)
  | 0, _ => none
  | fuel + 1, text =>
    match text with
    | ']' :: rest => some ([], rest)
    | _ => do
      let (item, rest) ← item? text
      match skipLines rest with
      | ',' :: rest => do
        let (items, rest) ← items? item? fuel (skipLines rest)
        return (item :: items, rest)
      | ']' :: rest => some ([item], rest)
      | _ => none

/-- The entries of an inline table up to its end. The fuel bounds their number. -/
def inlineEntries? (item? : Reader Value) : Nat → Entries → Reader Entries
  | 0, _, _ => none
  | fuel + 1, entries, text =>
    match text with
    | '\x7d' :: rest => some (entries, rest)
    | _ => do
      let (key, rest) ← key? text
      let (value, rest) ← item? (skipLines (← char? '=' (skipLines rest)))
      let entries ← assign value key entries
      match skipLines rest with
      | ',' :: rest => inlineEntries? item? fuel entries (skipLines rest)
      | '\x7d' :: rest => some (entries, rest)
      | _ => none

/-- A value in which arrays and inline tables are nested at most as deep as given. -/
def valueWithin? : Nat → Reader Value
  | 0, text => scalar? text
  | depth + 1, text =>
    match text with
    | '[' :: rest =>
      (items? (valueWithin? depth) text.length (skipLines rest)).map
        fun (items, rest) => (.array items, rest)
    | '\x7b' :: rest =>
      (inlineEntries? (valueWithin? depth) text.length [] (skipLines rest)).map
        fun (entries, rest) => (.table (entriesValue entries), rest)
    | _ => scalar? text

def value? : Reader Value := valueWithin? depthLimit

/-! ## Statements -/

/-- A document so far: its entries, and the path of the table that keys go to. -/
structure Draft where
  root : Entries := []
  current : List String := []

/-- One line of a document, continued over others where a value spans them. -/
def statement? (draft : Draft) (text : List Char) : Option (Draft × List Char) :=
  match skipSpaces text with
  | [] => some (draft, [])
  | '#' :: _ | '\n' :: _ | '\r' :: _ => (lineEnd? text).map (draft, ·)
  | '[' :: '[' :: rest => do
    let (key, rest) ← key? rest
    let rest ← lineEnd? (← char? ']' (← char? ']' rest))
    let root ← atPath (openSeries (key.getLastD "")) key.dropLast draft.root
    return ({ root, current := key }, rest)
  | '[' :: rest => do
    let (key, rest) ← key? rest
    let rest ← lineEnd? (← char? ']' rest)
    let root ← atPath (openTable (key.getLastD "")) key.dropLast draft.root
    return ({ root, current := key }, rest)
  | text => do
    let (key, rest) ← key? text
    let (value, rest) ← value? (skipSpaces (← char? '=' rest))
    let rest ← lineEnd? rest
    let root ← atPath (assign value key) draft.current draft.root
    return ({ draft with root }, rest)

/-- Every statement takes at least one character, so the length of the text bounds them. -/
def statements? : Nat → Draft → List Char → Option Draft
  | _, draft, [] => some draft
  | 0, _, _ => none
  | fuel + 1, draft, text => do
    let (draft, rest) ← statement? draft text
    statements? fuel draft rest

/-- The entries of a document, in the order in which they were first named; `none` when it is
not well formed. A byte order mark in front is skipped. -/
def document? (source : String) : Option (List (String × Value)) :=
  let text := match source.toList with
    | '\ufeff' :: rest => rest
    | text => text
  (statements? (text.length + 1) {} text).map fun draft => entriesValue draft.root

end Interop.Toml
