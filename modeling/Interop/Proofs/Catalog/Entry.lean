import Interop.Proofs.Catalog.Lookup
import Mathlib.Data.List.Perm.Basic
import Mathlib.Data.List.Nodup

/-! Entries by name. A catalog in which each name occurs once is known by what it has under each
name: catalogs that agree there have the same entries up to their order, and answer every question
about types and members alike. -/

namespace Interop

namespace Catalog

variable {catalog other : Catalog} {entries : List (String × CatalogEntry)}
  {name : String} {entry : CatalogEntry}

/-! ## Setting an entry -/

theorem lookup_setEntry_self : (setEntry name entry entries).lookup name = some entry := by
  induction entries with
  | nil => simp [setEntry]
  | cons first rest ih =>
    obtain ⟨key, old⟩ := first
    simp only [setEntry]
    by_cases hkey : key = name
    · simp [hkey]
    · rw [if_neg hkey, List.lookup_cons, beq_false_of_ne (Ne.symm hkey)]
      exact ih

theorem lookup_setEntry_of_ne {asked : String} (h : asked ≠ name) :
    (setEntry name entry entries).lookup asked = entries.lookup asked := by
  induction entries with
  | nil => simp [setEntry, List.lookup_cons, beq_false_of_ne h]
  | cons first rest ih =>
    obtain ⟨key, old⟩ := first
    simp only [setEntry]
    by_cases hkey : key = name
    · subst hkey
      simp [List.lookup_cons, beq_false_of_ne h]
    · rw [if_neg hkey, List.lookup_cons, List.lookup_cons, ih]

theorem mem_keys_setEntry {asked : String} :
    asked ∈ (setEntry name entry entries).map (·.1) ↔
      asked = name ∨ asked ∈ entries.map (·.1) := by
  induction entries with
  | nil => simp [setEntry]
  | cons first rest ih =>
    obtain ⟨key, old⟩ := first
    simp only [setEntry]
    by_cases hkey : key = name
    · simp [hkey]
    · rw [if_neg hkey, List.map_cons, List.mem_cons, ih, List.map_cons, List.mem_cons]
      exact or_left_comm

theorem nodup_keys_setEntry (h : (entries.map (·.1)).Nodup) :
    ((setEntry name entry entries).map (·.1)).Nodup := by
  induction entries with
  | nil => simp [setEntry]
  | cons first rest ih =>
    obtain ⟨key, old⟩ := first
    obtain ⟨hfirst, hrest⟩ := List.nodup_cons.mp h
    simp only [setEntry]
    by_cases hkey : key = name
    · subst hkey
      rw [if_pos rfl]
      exact List.nodup_cons.mpr ⟨hfirst, hrest⟩
    · rw [if_neg hkey]
      refine List.nodup_cons.mpr ⟨?_, ih hrest⟩
      rw [mem_keys_setEntry]
      rintro (hname | hmem)
      · exact hkey hname
      · exact hfirst hmem

/-! ## Entries up to their order -/

theorem lookup_eq_some_iff_mem (h : (entries.map (·.1)).Nodup) :
    entries.lookup name = some entry ↔ (name, entry) ∈ entries := by
  induction entries with
  | nil => simp
  | cons first rest ih =>
    obtain ⟨key, old⟩ := first
    obtain ⟨hfirst, hrest⟩ := List.nodup_cons.mp h
    by_cases hkey : name = key
    · subst hkey
      have hlater : (name, entry) ∉ rest := fun hmem =>
        hfirst (List.mem_map.mpr ⟨_, hmem, rfl⟩)
      simp [hlater, eq_comm]
    · rw [List.lookup_cons, beq_false_of_ne hkey]
      simp [ih hrest, hkey]

theorem perm_of_lookup_eq {entries' : List (String × CatalogEntry)}
    (h : (entries.map (·.1)).Nodup) (h' : (entries'.map (·.1)).Nodup)
    (hlookup : ∀ name, entries.lookup name = entries'.lookup name) : entries.Perm entries' := by
  rw [List.perm_ext_iff_of_nodup (List.Nodup.of_map _ h) (List.Nodup.of_map _ h')]
  rintro ⟨name, entry⟩
  rw [← lookup_eq_some_iff_mem h, ← lookup_eq_some_iff_mem h', hlookup]

theorem lookup_eq_of_perm {entries' : List (String × CatalogEntry)}
    (h : (entries.map (·.1)).Nodup) (hperm : entries.Perm entries') (name : String) :
    entries.lookup name = entries'.lookup name := by
  have h' : (entries'.map (·.1)).Nodup := (hperm.map _).nodup_iff.mp h
  refine Option.ext fun entry => ?_
  rw [lookup_eq_some_iff_mem h, lookup_eq_some_iff_mem h', hperm.mem_iff]

theorem find?_eq_map_lookup (entries : List (String × CatalogEntry)) (name : String) :
    entries.find? (·.1 = name) = (entries.lookup name).map (name, ·) := by
  induction entries with
  | nil => rfl
  | cons first rest ih =>
    obtain ⟨key, old⟩ := first
    by_cases hkey : key = name
    · simp [hkey]
    · rw [List.find?_cons_of_neg (by simpa using hkey), List.lookup_cons,
        beq_false_of_ne (Ne.symm hkey)]
      exact ih

theorem find?_eq_of_perm {entries' : List (String × CatalogEntry)}
    (h : (entries.map (·.1)).Nodup) (hperm : entries.Perm entries') (name : String) :
    entries.find? (·.1 = name) = entries'.find? (·.1 = name) := by
  rw [find?_eq_map_lookup, find?_eq_map_lookup, lookup_eq_of_perm h hperm]

/-- The ancestry of a name does not depend on the order of the entries. -/
theorem ancestry_eq_of_perm {entries' : List (String × CatalogEntry)}
    (h : (entries.map (·.1)).Nodup) (hperm : entries.Perm entries') (name : String) :
    ancestry entries name = ancestry entries' name := by
  induction entries, name using ancestry.induct generalizing entries' with
  | case1 entries name hnone =>
    rw [ancestry, hnone, ancestry, ← find?_eq_of_perm h hperm, hnone]
  | case2 entries name key first hfind ih =>
    have hfind' := hfind
    rw [find?_eq_of_perm h hperm] at hfind'
    rw [ancestry, hfind, ancestry, hfind']
    simp only
    split
    · rfl
    · rename_i base hbase
      congr 1
      exact ih base (h.sublist ((List.erase_sublist).map _)) (hperm.erase _)

theorem lineage_eq_of_perm (h : (catalog.entries.map (·.1)).Nodup)
    (hperm : catalog.entries.Perm other.entries) : catalog.lineage = other.lineage := by
  funext isStatic type
  simp only [lineage, entry?, lookup_eq_of_perm h hperm, ancestry_eq_of_perm h hperm]

/-- Catalogs with the same entries, up to their order, answer alike. -/
theorem host_eq_of_perm (h : (catalog.entries.map (·.1)).Nodup)
    (hperm : catalog.entries.Perm other.entries) : catalog.host = other.host := by
  have hlineage := lineage_eq_of_perm h hperm
  have htype : catalog.type? = other.type? := by
    funext name
    simp only [type?, entry?, lookup_eq_of_perm h hperm]
  have hmethod : catalog.method? = other.method? := by
    funext isStatic type name arity
    simp only [method?, findMember?, hlineage]
  have hnullary : catalog.nullaryMethod? = other.nullaryMethod? := by
    funext isStatic type name
    simp only [nullaryMethod?, hmethod]
  have hproperty : catalog.property? = other.property? := by
    funext isStatic type name
    simp only [property?, findMember?, hlineage]
  have hfield : catalog.field? = other.field? := by
    funext isStatic type name
    simp only [field?, findMember?, hlineage]
  simp only [host, htype, hfield, hproperty, hnullary, hmethod]

end Catalog

end Interop
