import Interop.Catalog.Basic

/-! Lookups of members. Whatever the lineage of a type, a member that is found is one of the
catalog's, and it is what was asked for. -/

namespace Interop

namespace Catalog

/-- Every field that some type of the catalog declares. -/
def fields (catalog : Catalog) : List Field := catalog.entries.flatMap (·.2.fields)

def properties (catalog : Catalog) : List Property := catalog.entries.flatMap (·.2.properties)

def methods (catalog : Catalog) : List Method := catalog.entries.flatMap (·.2.methods)

/-- Ancestors are among the entries. -/
theorem mem_of_mem_ancestry {entries : List (String × CatalogEntry)} {name : String}
    {entry : CatalogEntry} (h : entry ∈ ancestry entries name) : ∃ key, (key, entry) ∈ entries := by
  induction entries, name using ancestry.induct with
  | case1 entries name hnone =>
    rw [ancestry, hnone] at h
    cases h
  | case2 entries name key first hfind ih =>
    rw [ancestry, hfind] at h
    rcases List.mem_cons.mp h with rfl | h
    · exact ⟨key, List.mem_of_find?_eq_some hfind⟩
    · split at h
      · cases h
      · obtain ⟨other, hother⟩ := ih _ h
        exact ⟨other, List.mem_of_mem_erase hother⟩

theorem mem_of_entry? {catalog : Catalog} {name : String} {entry : CatalogEntry}
    (h : catalog.entry? name = some entry) : (name, entry) ∈ catalog.entries := by
  obtain ⟨before, after, heq, -⟩ := List.lookup_eq_some_iff.mp h
  rw [heq]
  simp

theorem mem_of_mem_lineage {catalog : Catalog} {isStatic : Bool} {type : HostType}
    {entry : CatalogEntry} (h : entry ∈ catalog.lineage isStatic type) :
    ∃ key, (key, entry) ∈ catalog.entries := by
  simp only [lineage] at h
  split at h
  · exact ⟨_, mem_of_entry? (Option.mem_toList.mp h)⟩
  · exact mem_of_mem_ancestry h

theorem findMember?_eq_some {α : Type} {catalog : Catalog} {isStatic : Bool} {type : HostType}
    {members : CatalogEntry → List α} {fits : α → Bool} {member : α}
    (h : catalog.findMember? isStatic type members fits = some member) :
    fits member ∧ member ∈ catalog.entries.flatMap (members ·.2) := by
  refine ⟨List.find?_some h, ?_⟩
  obtain ⟨entry, hentry, hmember⟩ := List.mem_flatMap.mp (List.mem_of_find?_eq_some h)
  obtain ⟨key, hkey⟩ := mem_of_mem_lineage hentry
  exact List.mem_flatMap.mpr ⟨(key, entry), hkey, hmember⟩

variable {catalog : Catalog} {isStatic : Bool} {type : HostType} {name : String}

theorem field?_eq_some {field : Field} (h : catalog.field? isStatic type name = some field) :
    field ∈ catalog.fields ∧ field.name = name ∧ field.isStatic = isStatic := by
  obtain ⟨hfits, hmem⟩ := findMember?_eq_some h
  exact ⟨hmem, by simpa using hfits⟩

theorem property?_eq_some {property : Property}
    (h : catalog.property? isStatic type name = some property) :
    property ∈ catalog.properties ∧ property.name = name ∧ property.isStatic = isStatic := by
  obtain ⟨hfits, hmem⟩ := findMember?_eq_some h
  exact ⟨hmem, by simpa using hfits⟩

theorem method?_eq_some {method : Method} {arity : Nat}
    (h : catalog.method? isStatic type name arity = some method) :
    method ∈ catalog.methods ∧ method.name = name ∧ method.isStatic = isStatic ∧
      method.arity = arity := by
  obtain ⟨hfits, hmem⟩ := findMember?_eq_some h
  simp only [Bool.and_eq_true, decide_eq_true_eq] at hfits
  exact ⟨hmem, hfits.1.1, hfits.1.2, hfits.2⟩

end Catalog

end Interop
