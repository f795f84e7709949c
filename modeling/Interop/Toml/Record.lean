import Interop.Toml.Document

/-! Records: tables whose keys are known in advance, or arrays that hold the values of these keys
in their order. Other keys of a table, and values that an array has to spare, mean nothing. Still,
a table is read as a whole, so every number in it has to be readable. -/

namespace Interop.Toml

/-- The value of one key of a record. -/
inductive Slot where
  | present (value : Value)
  | absent
  /-- The record is an array that is too short to have the value. -/
  | beyondEnd

namespace Slot

def required {α : Type} (slot : Slot) (read : Value → Option α) : Option α :=
  match slot with
  | .present value => read value
  | _ => none

def withDefault {α : Type} (slot : Slot) (default : α) (read : Value → Option α) : Option α :=
  match slot with
  | .present value => read value
  | _ => some default

/-- A value that a table may leave out, but an array may not. -/
def optional {α : Type} (slot : Slot) (read : Value → Option α) : Option (Option α) :=
  match slot with
  | .present value => (read value).map some
  | .absent => some none
  | .beyondEnd => none

def flag (slot : Slot) : Option Bool := slot.withDefault false Value.boolean?

def list {α : Type} (slot : Slot) (read : Value → Option α) : Option (List α) :=
  slot.withDefault [] fun value => do (← value.array?).mapM read

end Slot

/-- The slots of a record with the given keys. -/
def slots? (keys : List String) : Value → Option (String → Slot)
  | .table entries =>
    if entries.all fun (name, value) => name ∈ keys || value.isReadable then
      some fun name =>
        match entries.lookup name with
        | some value => .present value
        | none => .absent
    else none
  | .array items => some fun name =>
    match items[keys.idxOf name]? with
    | some value => .present value
    | none => .beyondEnd
  | _ => none

end Interop.Toml
