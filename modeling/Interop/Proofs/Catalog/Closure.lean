import Interop.Proofs.Catalog.Reach

/-! Closure of catalogs. Whatever a catalog says about members, it says in types that it finds
itself, each under its own name: a type can be passed on as its name and found again. -/

namespace Interop

/-- The types in the signatures of the members. -/
def CatalogEntry.signatureTypes (entry : CatalogEntry) : List HostType :=
  entry.fields.map (·.type) ++ entry.properties.map (·.type) ++
    entry.methods.flatMap fun method => method.returns :: method.params

/-- The types that the members say they are declared by. -/
def CatalogEntry.declaringTypes (entry : CatalogEntry) : List HostType :=
  entry.fields.map (·.declaring) ++ entry.properties.map (·.declaring) ++
    entry.methods.map (·.declaring)

namespace Catalog

variable {C D : Catalog} {decl : TypeDecl} {decls : List TypeDecl} {entry : CatalogEntry}
  {type : HostType}

/-- A catalog finds again all that an entry refers to. -/
structure Covers (C : Catalog) (entry : CatalogEntry) : Prop where
  signatures : ∀ type ∈ entry.signatureTypes, C.type? type.name = some type
  base : ∀ base, entry.base = some base → ∃ type, C.type? base = some type
  declaring : ∀ type ∈ entry.declaringTypes, type = entry.type

/-- A catalog finds again all that its entries refer to, and tells types apart by name. -/
structure Closed (C : Catalog) : Prop where
  covers : ∀ name entry, (name, entry) ∈ C.entries → C.Covers entry
  name_of_type? : ∀ name type, C.type? name = some type → type.name = name
  eq_of_name_eq : ∀ name name' type type', C.type? name = some type →
    C.type? name' = some type' → type.name = type'.name → type = type'

/-! ## Entries of declarations -/

theorem IsEntryOf.exists_of_mem_signatureTypes (h : C.IsEntryOf decl entry)
    (htype : type ∈ entry.signatureTypes) :
    type = .void ∨ ∃ name, C.type? name = some type := by
  simp only [CatalogEntry.signatureTypes, List.mem_append, List.mem_map, List.mem_flatMap,
    List.mem_cons] at htype
  obtain (⟨field, hfield, rfl⟩ | ⟨property, hproperty, rfl⟩) | ⟨method, hmethod, hpart⟩ := htype
  · obtain ⟨written, -, type, hknown, rfl⟩ := exists_of_mem_forall₂ h.fields hfield
    exact .inr ⟨_, hknown⟩
  · obtain ⟨written, -, type, hknown, rfl⟩ := exists_of_mem_forall₂ h.properties hproperty
    exact .inr ⟨_, hknown⟩
  · obtain ⟨written, -, params, hparams, returns, hreturns, rfl⟩ :=
      exists_of_mem_forall₂ h.methods hmethod
    rcases hpart with rfl | hparam
    · cases hwritten : written.returns with
      | none =>
        rw [hwritten] at hreturns
        exact .inl hreturns
      | some name =>
        rw [hwritten] at hreturns
        exact .inr ⟨name, hreturns⟩
    · obtain ⟨name, -, hknown⟩ := exists_of_mem_forall₂ hparams hparam
      exact .inr ⟨name, hknown⟩

theorem IsEntryOf.eq_of_mem_declaringTypes (h : C.IsEntryOf decl entry)
    (htype : type ∈ entry.declaringTypes) : type = decl.type := by
  simp only [CatalogEntry.declaringTypes, List.mem_append, List.mem_map] at htype
  obtain (⟨field, hfield, rfl⟩ | ⟨property, hproperty, rfl⟩) | ⟨method, hmethod, rfl⟩ := htype
  · obtain ⟨written, -, type, -, rfl⟩ := exists_of_mem_forall₂ h.fields hfield
    rfl
  · obtain ⟨written, -, type, -, rfl⟩ := exists_of_mem_forall₂ h.properties hproperty
    rfl
  · obtain ⟨written, -, params, -, returns, -, rfl⟩ := exists_of_mem_forall₂ h.methods hmethod
    rfl

/-- The entry of a declaration is covered by the catalog that resolved it. The type of no value
is not resolved by name, so it has to be known besides. -/
theorem IsEntryOf.covers (hnamed : C.Named) (hvoid : C.type? voidTypeName = some .void)
    (h : C.IsEntryOf decl entry) : C.Covers entry where
  signatures := by
    intro type htype
    rcases h.exists_of_mem_signatureTypes htype with rfl | ⟨name, hknown⟩
    · exact hvoid
    · rw [hnamed.name_of_type? hknown, hknown]
  base := by
    rw [h.base]
    exact h.baseKnown
  declaring := by
    intro type htype
    rw [h.type]
    exact h.eq_of_mem_declaringTypes htype

theorem Covers.mono (h : C.KnownIn D) (hcovers : C.Covers entry) : D.Covers entry where
  signatures := fun type htype => h _ _ (hcovers.signatures type htype)
  base := by
    intro base hbase
    obtain ⟨type, hknown⟩ := hcovers.base base hbase
    exact ⟨type, h _ _ hknown⟩
  declaring := hcovers.declaring

/-! ## Catalogs -/

/-- The type of no value is known, and every entry is covered. -/
structure Covering (C : Catalog) : Prop where
  void : C.type? voidTypeName = some .void
  entries : ∀ name entry, C.entry? name = some entry → C.Covers entry

theorem Covering.of_extends (hfits : C.Fits decls) (hnamed : C.Named) (hC : C.Covering)
    (h : C.Extends decls D) : D.Covering where
  void := h.knownIn hfits _ _ hC.void
  entries := by
    intro name entry hentry
    rcases h.entry?_cases hentry with ⟨decl, -, -, hof⟩ | hold
    · exact hof.covers (hnamed.of_extends h) (h.knownIn hfits _ _ hC.void)
    · exact (hC.entries name entry hold).mono (h.knownIn hfits)

theorem covering_empty : empty.Covering where
  void := by decide
  entries := by
    intro name entry hentry
    obtain ⟨type, rfl, rfl⟩ := eq_of_empty_entry? hentry
    exact ⟨by simp [CatalogEntry.signatureTypes], by simp, by simp [CatalogEntry.declaringTypes]⟩

theorem fits_builtinTypes : empty.Fits builtinTypes := by
  have hfits : ∀ decl ∈ builtinTypes,
      (empty.entry? decl.name).all fun entry => entry.type = decl.type := by
    decide
  intro decl hdecl entry hentry
  have hall := hfits decl hdecl
  rw [hentry] at hall
  simpa using hall

theorem covering_after (read : String → Option (List TypeDecl)) (sources : List String) :
    (after read sources).Covering := by
  refine after_induction read ?_ ?_ sources
  · exact covering_empty.of_extends fits_builtinTypes named_empty extends_builtin
  · intro C decls D hwell hC h
    exact hC.of_extends (hwell.settled.fits h) hwell.named h

theorem Covering.closed (hwell : C.WellFormed) (hC : C.Covering) : C.Closed where
  covers := by
    intro name entry hmem
    exact hC.entries name entry ((lookup_eq_some_iff_mem hwell.unique).mpr hmem)
  name_of_type? := fun _ _ => hwell.named.name_of_type?
  eq_of_name_eq := by
    intro name name' type type' htype htype' hsame
    rw [hwell.named.name_of_type? htype, hwell.named.name_of_type? htype'] at hsame
    rw [hsame, htype'] at htype
    exact (Option.some.inj htype).symm

/-- **Closure.** Whatever documents have been given to the built-in catalog, in whatever notation and
whether or not they could be loaded, the catalog finds every type of a field, a property, a parameter
or a return value under its own name, and every base that an entry names; each member says that it is
declared by the type of its entry; and types that are found are the same if their names are. -/
theorem closed_after (read : String → Option (List TypeDecl)) (sources : List String) :
    (after read sources).Closed :=
  (covering_after read sources).closed (wellFormed_after read sources)

end Catalog

end Interop
