import Interop.Proofs.Catalog.Loading

/-! Extensions of catalogs. What loading leaves behind is described by the declarations alone:
whichever catalog fits the description is, up to the order of its entries, the one that loading
gives. Extensions compose, as long as the names that a catalog knows without a declaration can
only be declared as what they are. -/

namespace Interop

namespace Catalog

variable {C D E : Catalog} {decl : TypeDecl} {decls later : List TypeDecl} {name : String}
  {entry : CatalogEntry}

/-- The second catalog is the first with the declarations added. References are resolved in the
second, where every declaration is known. -/
structure Extends (C : Catalog) (decls : List TypeDecl) (D : Catalog) : Prop where
  distinct : (decls.map (·.name)).Nodup
  fresh : ∀ decl ∈ decls, decl.name ∉ C.declared
  declared : D.declared.Perm (decls.map (·.name) ++ C.declared)
  defined : ∀ decl ∈ decls, ∃ entry, D.entry? decl.name = some entry ∧ D.IsEntryOf decl entry
  kept : ∀ name ∉ decls.map (·.name), D.entry? name = C.entry? name
  unique : C.Unique → D.Unique

theorem Extends.types (h : C.Extends decls D) : C.Types decls D where
  declared := by
    intro decl hdecl
    obtain ⟨entry, hentry, hof⟩ := h.defined decl hdecl
    rw [plainType?, hentry, Option.map_some, hof.type]
  others := by
    intro name hname
    rw [plainType?, plainType?, h.kept name hname]

/-- An entry of an extension is that of a declaration, or it was there before. -/
theorem Extends.entry?_cases (h : C.Extends decls D) (hentry : D.entry? name = some entry) :
    (∃ decl ∈ decls, decl.name = name ∧ D.IsEntryOf decl entry) ∨ C.entry? name = some entry := by
  by_cases hname : name ∈ decls.map (·.name)
  · obtain ⟨decl, hdecl, rfl⟩ := List.mem_map.mp hname
    obtain ⟨found, hfound, hof⟩ := h.defined decl hdecl
    obtain rfl : found = entry := Option.some.inj (hfound.symm.trans hentry)
    exact .inl ⟨decl, hdecl, rfl, hof⟩
  · rw [h.kept name hname] at hentry
    exact .inr hentry

/-! ## Loading gives an extension -/

theorem extend_eq_ok_iff :
    C.extend decls = .ok D ↔
      ∃ R, decls.foldlM register C = .ok R ∧ decls.foldlM define R = .ok D := by
  rw [extend, except_bind_eq_ok_iff]

theorem extends_of_extend (h : C.extend decls = .ok D) : C.Extends decls D := by
  obtain ⟨R, hregister, hdefine⟩ := extend_eq_ok_iff.mp h
  have hfirst := registers_of_foldlM hregister
  have hsecond := defines_of_foldlM hfirst.distinct hfirst.typed hdefine
  refine ⟨hfirst.distinct, hfirst.fresh, ?_, ?_, ?_, ?_⟩
  · rw [hsecond.declared]
    exact hfirst.declared
  · intro decl hdecl
    obtain ⟨entry, hentry, hof⟩ := hsecond.defined decl hdecl
    exact ⟨entry, hentry, hof.congr hsecond.types.symm⟩
  · intro name hname
    rw [hsecond.kept name hname, hfirst.kept name hname]
  · intro hunique
    exact hsecond.unique (hfirst.unique hunique)

/-- Where there is an extension, loading does not fail. -/
theorem Extends.exists_extend (h : C.Extends decls D) : ∃ D', C.extend decls = .ok D' := by
  obtain ⟨R, hregister⟩ := exists_foldlM_register h.distinct h.fresh
  have hfirst := registers_of_foldlM hregister
  have htypes : D.plainType? = R.plainType? := h.types.plainType?_eq hfirst.types
  have hentries : ∀ decl ∈ decls, ∃ entry, R.IsEntryOf decl entry := by
    intro decl hdecl
    obtain ⟨entry, -, hof⟩ := h.defined decl hdecl
    exact ⟨entry, hof.congr htypes⟩
  obtain ⟨D', hdefine⟩ := exists_foldlM_define hfirst.typed hentries
  exact ⟨D', extend_eq_ok_iff.mpr ⟨R, hregister, hdefine⟩⟩

/-! ## The declarations decide -/

theorem IsEntryOf.unique {entry' : CatalogEntry} (h : C.IsEntryOf decl entry)
    (h' : C.IsEntryOf decl entry') : entry = entry' := by
  rw [← resolveEntry_eq_ok_iff] at h h'
  exact Except.ok.inj (h.symm.trans h')

/-- Two extensions by the same declarations agree under every name. -/
theorem Extends.entry?_eq {D' : Catalog} (h : C.Extends decls D) (h' : C.Extends decls D') :
    D.entry? name = D'.entry? name := by
  by_cases hname : name ∈ decls.map (·.name)
  · obtain ⟨decl, hdecl, rfl⟩ := List.mem_map.mp hname
    obtain ⟨entry, hentry, hof⟩ := h.defined decl hdecl
    obtain ⟨entry', hentry', hof'⟩ := h'.defined decl hdecl
    have htypes : D.plainType? = D'.plainType? := h.types.plainType?_eq h'.types
    rw [hentry, hentry', (hof.congr htypes).unique hof']
  · rw [h.kept name hname, h'.kept name hname]

theorem Extends.entries_perm {D' : Catalog} (hC : C.Unique) (h : C.Extends decls D)
    (h' : C.Extends decls D') : D.entries.Perm D'.entries :=
  perm_of_lookup_eq (h.unique hC) (h'.unique hC) fun _ => h.entry?_eq h'

theorem Extends.declared_perm {D' : Catalog} (h : C.Extends decls D) (h' : C.Extends decls D') :
    D.declared.Perm D'.declared :=
  h.declared.trans h'.declared.symm

/-- The order of the declarations does not matter. -/
theorem Extends.perm {decls' : List TypeDecl} (h : C.Extends decls D)
    (hperm : decls.Perm decls') : C.Extends decls' D := by
  have hnames : (decls.map (·.name)).Perm (decls'.map (·.name)) := hperm.map _
  refine ⟨hnames.nodup_iff.mp h.distinct, ?_, ?_, ?_, ?_, h.unique⟩
  · intro decl hdecl
    exact h.fresh decl (hperm.mem_iff.mpr hdecl)
  · exact h.declared.trans (hnames.append_right _)
  · intro decl hdecl
    exact h.defined decl (hperm.mem_iff.mpr hdecl)
  · intro name hname
    exact h.kept name fun hmem => hname (hnames.mem_iff.mp hmem)

/-! ## Extensions of extensions -/

/-- Declarations of known names are of the types that the names have. -/
def Fits (C : Catalog) (decls : List TypeDecl) : Prop :=
  ∀ decl ∈ decls, ∀ entry, C.entry? decl.name = some entry → entry.type = decl.type

/-- A name that is known without a declaration has the type that any declaration would give
it. -/
def Settled (C : Catalog) : Prop :=
  ∀ (decl : TypeDecl) (entry : CatalogEntry), C.entry? decl.name = some entry →
    decl.name ∉ C.declared → entry.type = decl.type

theorem Settled.fits (hC : C.Settled) (h : C.Extends decls D) : C.Fits decls := by
  intro decl hdecl entry hentry
  exact hC decl entry hentry (h.fresh decl hdecl)

theorem Settled.of_extends (hC : C.Settled) (h : C.Extends decls D) : D.Settled := by
  intro decl entry hentry hfree
  rw [h.declared.mem_iff, List.mem_append, not_or] at hfree
  rw [h.kept _ hfree.1] at hentry
  exact hC decl entry hentry hfree.2

/-- Types that are known stay known. -/
theorem Extends.knownIn (hfits : C.Fits decls) (h : C.Extends decls D) : C.KnownIn D := by
  refine knownIn_of_plainType? fun name type htype => ?_
  by_cases hname : name ∈ decls.map (·.name)
  · obtain ⟨decl, hdecl, rfl⟩ := List.mem_map.mp hname
    obtain ⟨entry, hentry, rfl⟩ := Option.map_eq_some_iff.mp htype
    rw [h.types.declared decl hdecl, hfits decl hdecl entry hentry]
  · rw [h.types.others name hname, htype]

theorem Extends.refl (C : Catalog) : C.Extends [] C :=
  ⟨List.nodup_nil, by simp, by simp, by simp, fun _ _ => rfl, id⟩

theorem Extends.trans (hC : C.Settled) (h : C.Extends decls D) (h' : D.Extends later E) :
    C.Extends (decls ++ later) E := by
  have hknown : D.KnownIn E := h'.knownIn ((hC.of_extends h).fits h')
  have hapart : ∀ decl ∈ decls, decl.name ∉ later.map (·.name) := by
    intro decl hdecl hmem
    obtain ⟨other, hother, hname⟩ := List.mem_map.mp hmem
    refine h'.fresh other hother (h.declared.mem_iff.mpr (List.mem_append_left _ ?_))
    rw [hname]
    exact List.mem_map_of_mem hdecl
  refine ⟨?_, ?_, ?_, ?_, ?_, fun hunique => h'.unique (h.unique hunique)⟩
  · rw [List.map_append]
    refine List.Nodup.append h.distinct h'.distinct fun name hname hlater => ?_
    obtain ⟨decl, hdecl, rfl⟩ := List.mem_map.mp hname
    exact hapart decl hdecl hlater
  · intro decl hdecl hmem
    rcases List.mem_append.mp hdecl with hdecl | hdecl
    · exact h.fresh decl hdecl hmem
    · exact h'.fresh decl hdecl (h.declared.mem_iff.mpr (List.mem_append_right _ hmem))
  · have hmoved : (later.map (·.name) ++ D.declared).Perm
        (later.map (·.name) ++ (decls.map (·.name) ++ C.declared)) :=
      h.declared.append_left _
    refine (h'.declared.trans hmoved).trans ?_
    rw [List.map_append, ← List.append_assoc]
    exact List.perm_append_comm.append_right _
  · intro decl hdecl
    rcases List.mem_append.mp hdecl with hdecl | hdecl
    · obtain ⟨entry, hentry, hof⟩ := h.defined decl hdecl
      exact ⟨entry, by rw [h'.kept _ (hapart decl hdecl), hentry], hof.mono hknown⟩
    · exact h'.defined decl hdecl
  · intro name hname
    rw [List.map_append, List.mem_append, not_or] at hname
    rw [h'.kept name hname.2, h.kept name hname.1]

/-- Declarations that are loaded in several parts extend a catalog as if they were one list. -/
theorem extends_of_foldlM {parts : List (List TypeDecl)} (hC : C.Settled)
    (h : parts.foldlM extend C = .ok D) : C.Extends parts.flatten D := by
  induction parts generalizing C with
  | nil =>
    obtain rfl := except_pure_eq_ok_iff.mp h
    exact .refl C
  | cons part parts ih =>
    rw [List.foldlM_cons, except_bind_eq_ok_iff] at h
    obtain ⟨C₁, hfirst, hrest⟩ := h
    have hstep := extends_of_extend hfirst
    rw [List.flatten_cons]
    exact hstep.trans hC (ih (hC.of_extends hstep) hrest)

end Catalog

end Interop
