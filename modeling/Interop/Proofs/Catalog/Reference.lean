import Interop.Proofs.Catalog.Closure
import Interop.Proofs.Catalog.Listing

/-! References to members. A member says which type declares it, and this is the type of the entry
that it stands in. The search for the member on that type begins with this entry, so it finds the
member again, wherever on a chain of bases it was found first. -/

namespace Interop

/-- A member of a host type. -/
inductive Member where
  | field (field : Field)
  | property (property : Property)
  | method (method : Method)

/-- A reference to an instance member: the name of a type, and what to look up on that type. -/
structure InstanceRef where
  type : String
  member : InstanceMember

namespace Catalog

variable {C D : Catalog} {name : String} {entry : CatalogEntry}

/-- Whatever was loaded, members say that they are declared by the type of their entry. -/
theorem Reached.eq_of_mem_declaringTypes (hC : C.Reached) (hentry : C.entry? name = some entry)
    {type : HostType} (htype : type ∈ entry.declaringTypes) : type = entry.type := by
  refine hC.induction (P := fun C => ∀ name entry, C.entry? name = some entry →
    ∀ type ∈ entry.declaringTypes, type = entry.type) ?_ ?_ name entry hentry type htype
  · intro name entry hentry type htype
    obtain ⟨known, -, rfl⟩ := eq_of_empty_entry? hentry
    cases htype
  · intro C decls D hC h name entry hentry type htype
    rcases h.entry?_cases hentry with ⟨decl, -, -, hof⟩ | hold
    · rw [hof.type]
      exact hof.eq_of_mem_declaringTypes htype
    · exact hC name entry hold type htype

section

variable {α : Type} {isStatic : Bool} {type : HostType} {members : CatalogEntry → List α}
  {fits : α → Bool} {member : α}

/-- A member that is found is the first that fits of some entry. -/
theorem exists_entry?_of_findMember? (hunique : C.Unique)
    (h : C.findMember? isStatic type members fits = some member) :
    ∃ name entry, C.entry? name = some entry ∧ (members entry).find? fits = some member := by
  rw [findMember?, List.find?_flatMap] at h
  obtain ⟨entry, hentry, hfound⟩ := List.exists_of_findSome?_eq_some h
  obtain ⟨name, hmem⟩ := mem_of_mem_lineage hentry
  exact ⟨name, entry, (lookup_eq_some_iff_mem hunique).mpr hmem, hfound⟩

/-- A lookup on the type of an entry finds the entry's own member. -/
theorem Reached.findMember?_eq_own (hC : C.Reached) (hentry : C.entry? name = some entry)
    (hown : (members entry).find? fits = some member) :
    C.findMember? isStatic entry.type members fits = some member := by
  obtain ⟨bases, hlineage⟩ := exists_lineage_eq_cons hC.searchable.unique hC.searchable.named hentry
    (hC.origin hentry).ne_array isStatic
  rw [findMember?, hlineage, List.flatMap_cons, List.find?_append, hown, Option.some_or]

/-- A member is found again on the type that declares it, which has an entry of its own. -/
theorem Reached.findMember?_again (hC : C.Reached) {declaring : α → HostType}
    (hdeclaring : ∀ entry, ∀ member ∈ members entry, declaring member ∈ entry.declaringTypes)
    (h : C.findMember? isStatic type members fits = some member) :
    (∃ entry, C.entry? (declaring member).name = some entry ∧ entry.type = declaring member) ∧
      C.findMember? isStatic (declaring member) members fits = some member := by
  obtain ⟨name, entry, hentry, hown⟩ := exists_entry?_of_findMember? hC.searchable.unique h
  have hsame : declaring member = entry.type :=
    hC.eq_of_mem_declaringTypes hentry (hdeclaring entry member (List.mem_of_find?_eq_some hown))
  rw [hsame, hC.searchable.named name entry hentry]
  exact ⟨⟨entry, hentry, rfl⟩, hC.findMember?_eq_own hentry hown⟩

end

/-! ## What references lead to -/

/-- The type has an entry in the catalog. -/
def HasEntry (C : Catalog) (type : HostType) : Prop :=
  ∃ entry, C.entry? type.name = some entry ∧ entry.type = type

variable {isStatic : Bool} {type : HostType} {asked : String} {arity : Nat}

theorem Reached.field?_again (hC : C.Reached) {field : Field}
    (h : C.field? isStatic type asked = some field) :
    C.HasEntry field.declaring ∧ C.field? isStatic field.declaring asked = some field :=
  hC.findMember?_again (fun _ _ hfield =>
    List.mem_append_left _ (List.mem_append_left _ (List.mem_map_of_mem hfield))) h

theorem Reached.property?_again (hC : C.Reached) {property : Property}
    (h : C.property? isStatic type asked = some property) :
    C.HasEntry property.declaring ∧
      C.property? isStatic property.declaring asked = some property :=
  hC.findMember?_again (fun _ _ hproperty =>
    List.mem_append_left _ (List.mem_append_right _ (List.mem_map_of_mem hproperty))) h

theorem Reached.method?_again (hC : C.Reached) {method : Method}
    (h : C.method? isStatic type asked arity = some method) :
    C.HasEntry method.declaring ∧
      C.method? isStatic method.declaring asked arity = some method :=
  hC.findMember?_again (fun _ _ hmethod =>
    List.mem_append_right _ (List.mem_map_of_mem hmethod)) h

/-- The instance member that a lookup on a type finds. -/
def instanceMember? (C : Catalog) (type : HostType) : InstanceMember → Option Member
  | .field name => (C.field? false type name).map .field
  | .property name => (C.property? false type name).map .property
  | .method name arity => (C.method? false type name arity).map .method

/-- A reference leads to a member: the type of that name has an entry, and the lookup on the type
finds this member. -/
def Identifies (C : Catalog) (ref : InstanceRef) (member : Member) : Prop :=
  ∃ entry, C.entry? ref.type = some entry ∧ C.instanceMember? entry.type ref.member = some member

theorem Reached.identifies_field (hC : C.Reached) {field : Field}
    (h : C.field? false type asked = some field) :
    C.Identifies { type := field.declaring.name, member := .field field.name } (.field field) := by
  obtain ⟨⟨entry, hentry, htype⟩, hagain⟩ := hC.field?_again h
  obtain ⟨-, rfl, -⟩ := field?_eq_some h
  exact ⟨entry, hentry, by rw [htype, instanceMember?, hagain, Option.map_some]⟩

theorem Reached.identifies_property (hC : C.Reached) {property : Property}
    (h : C.property? false type asked = some property) :
    C.Identifies { type := property.declaring.name, member := .property property.name }
      (.property property) := by
  obtain ⟨⟨entry, hentry, htype⟩, hagain⟩ := hC.property?_again h
  obtain ⟨-, rfl, -⟩ := property?_eq_some h
  exact ⟨entry, hentry, by rw [htype, instanceMember?, hagain, Option.map_some]⟩

theorem Reached.identifies_method (hC : C.Reached) {method : Method}
    (h : C.method? false type asked arity = some method) :
    C.Identifies { type := method.declaring.name, member := .method asked arity }
      (.method method) := by
  obtain ⟨⟨entry, hentry, htype⟩, hagain⟩ := hC.method?_again h
  exact ⟨entry, hentry, by rw [htype, instanceMember?, hagain, Option.map_some]⟩

end Catalog

end Interop
