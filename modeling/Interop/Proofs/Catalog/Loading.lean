import Interop.Proofs.Catalog.Resolution

/-! The two passes of loading declarations. The first makes every name known and settles which
type it stands for; the second fills in the entries and changes no type, so that it does not
matter where in the second pass a reference is resolved. -/

namespace Interop

namespace Catalog

variable {C D R : Catalog} {decl : TypeDecl} {decls : List TypeDecl} {name : String}
  {entry : CatalogEntry}

/-- Each name occurs once among the entries. -/
def Unique (C : Catalog) : Prop := (C.entries.map (·.1)).Nodup

/-- The names that are declared are the types of the declarations; other names mean what they
meant. -/
structure Types (C : Catalog) (decls : List TypeDecl) (D : Catalog) : Prop where
  declared : ∀ decl ∈ decls, D.plainType? decl.name = some decl.type
  others : ∀ name ∉ decls.map (·.name), D.plainType? name = C.plainType? name

theorem Types.plainType?_eq {D' : Catalog} (h : C.Types decls D) (h' : C.Types decls D') :
    D.plainType? = D'.plainType? := by
  funext name
  by_cases hname : name ∈ decls.map (·.name)
  · obtain ⟨decl, hdecl, rfl⟩ := List.mem_map.mp hname
    rw [h.declared decl hdecl, h'.declared decl hdecl]
  · rw [h.others name hname, h'.others name hname]

/-- Only the types of a catalog decide what declarations resolve to. -/
theorem IsEntryOf.congr (h : C.plainType? = D.plainType?) (hentry : C.IsEntryOf decl entry) :
    D.IsEntryOf decl entry :=
  hentry.mono (knownIn_of_plainType? fun name type htype => by rw [← h]; exact htype)

/-! ## Setting one entry -/

theorem plainType?_setEntry_self {declared : List String} :
    plainType? { entries := setEntry name entry C.entries, declared } name =
      some entry.type := by
  rw [plainType?, entry?, lookup_setEntry_self]
  rfl

theorem entry?_setEntry_of_ne {declared : List String} {asked : String} (h : asked ≠ name) :
    entry? { entries := setEntry name entry C.entries, declared } asked = C.entry? asked :=
  lookup_setEntry_of_ne h

/-! ## The first pass -/

theorem register_eq_ok_iff :
    C.register decl = .ok R ↔ decl.name ∉ C.declared ∧
      { entries := setEntry decl.name { type := decl.type } C.entries
        declared := decl.name :: C.declared } = R := by
  rw [register]
  by_cases hmem : decl.name ∈ C.declared
  · simp [hmem]
  · simp [hmem]

/-- What the first pass has done. -/
structure Registers (C : Catalog) (decls : List TypeDecl) (R : Catalog) : Prop where
  distinct : (decls.map (·.name)).Nodup
  fresh : ∀ decl ∈ decls, decl.name ∉ C.declared
  declared : R.declared.Perm (decls.map (·.name) ++ C.declared)
  typed : ∀ decl ∈ decls, R.plainType? decl.name = some decl.type
  kept : ∀ name ∉ decls.map (·.name), R.entry? name = C.entry? name
  unique : C.Unique → R.Unique

theorem Registers.types (h : C.Registers decls R) : C.Types decls R where
  declared := h.typed
  others := by
    intro name hname
    rw [plainType?, plainType?, h.kept name hname]

theorem registers_of_foldlM (h : decls.foldlM register C = .ok R) : C.Registers decls R := by
  induction decls generalizing C with
  | nil =>
    obtain rfl := except_pure_eq_ok_iff.mp h
    exact ⟨List.nodup_nil, by simp, by simp, by simp, fun _ _ => rfl, id⟩
  | cons decl decls ih =>
    rw [List.foldlM_cons, except_bind_eq_ok_iff] at h
    obtain ⟨C₁, hstep, hrest⟩ := h
    obtain ⟨hfresh, rfl⟩ := register_eq_ok_iff.mp hstep
    have hlater := ih hrest
    have hnotin : decl.name ∉ decls.map (·.name) := by
      intro hmem
      obtain ⟨other, hother, hname⟩ := List.mem_map.mp hmem
      exact hlater.fresh other hother (by simp [hname])
    refine ⟨List.nodup_cons.mpr ⟨hnotin, hlater.distinct⟩, ?_, ?_, ?_, ?_, ?_⟩
    · intro other hother
      rcases List.mem_cons.mp hother with rfl | hother
      · exact hfresh
      · exact fun hmem => hlater.fresh other hother (List.mem_cons_of_mem _ hmem)
    · exact hlater.declared.trans List.perm_middle
    · intro other hother
      rcases List.mem_cons.mp hother with rfl | hother
      · rw [plainType?, hlater.kept _ hnotin]
        exact plainType?_setEntry_self
      · exact hlater.typed other hother
    · intro name hname
      rw [List.map_cons, List.mem_cons, not_or] at hname
      rw [hlater.kept name hname.2]
      exact entry?_setEntry_of_ne hname.1
    · intro hunique
      exact hlater.unique (nodup_keys_setEntry hunique)

/-- The first pass fails only on names that are declared twice. -/
theorem exists_foldlM_register (hdistinct : (decls.map (·.name)).Nodup)
    (hfresh : ∀ decl ∈ decls, decl.name ∉ C.declared) :
    ∃ R, decls.foldlM register C = .ok R := by
  induction decls generalizing C with
  | nil => exact ⟨C, rfl⟩
  | cons decl decls ih =>
    rw [List.map_cons, List.nodup_cons] at hdistinct
    obtain ⟨hnotin, hdistinct⟩ := hdistinct
    obtain ⟨C₁, hstep, hdeclared⟩ :
        ∃ C₁, C.register decl = .ok C₁ ∧ C₁.declared = decl.name :: C.declared :=
      ⟨_, register_eq_ok_iff.mpr ⟨hfresh decl List.mem_cons_self, rfl⟩, rfl⟩
    have hlater : ∀ other ∈ decls, other.name ∉ C₁.declared := by
      intro other hother
      rw [hdeclared, List.mem_cons, not_or]
      refine ⟨fun hname => hnotin ?_, hfresh other (List.mem_cons_of_mem _ hother)⟩
      rw [← hname]
      exact List.mem_map_of_mem hother
    obtain ⟨R, hR⟩ := ih hdistinct hlater
    exact ⟨R, by rw [List.foldlM_cons, except_bind_eq_ok_iff]; exact ⟨_, hstep, hR⟩⟩

/-! ## The second pass -/

theorem define_eq_ok_iff :
    C.define decl = .ok D ↔ ∃ entry, C.IsEntryOf decl entry ∧
      { C with entries := setEntry decl.name entry C.entries } = D := by
  simp only [define, except_bind_eq_ok_iff, except_pure_eq_ok_iff, resolveEntry_eq_ok_iff]

/-- Filling in an entry changes no type. -/
theorem plainType?_define (hentry : C.IsEntryOf decl entry)
    (htype : C.plainType? decl.name = some decl.type) :
    plainType? { C with entries := setEntry decl.name entry C.entries } = C.plainType? := by
  funext name
  by_cases hname : name = decl.name
  · rw [hname, plainType?_setEntry_self, htype, hentry.type]
  · rw [plainType?, entry?_setEntry_of_ne hname]
    rfl

/-- What the second pass has done. -/
structure Defines (R : Catalog) (decls : List TypeDecl) (D : Catalog) : Prop where
  declared : D.declared = R.declared
  types : D.plainType? = R.plainType?
  defined : ∀ decl ∈ decls, ∃ entry, D.entry? decl.name = some entry ∧ R.IsEntryOf decl entry
  kept : ∀ name ∉ decls.map (·.name), D.entry? name = R.entry? name
  unique : R.Unique → D.Unique

theorem defines_of_foldlM (hdistinct : (decls.map (·.name)).Nodup)
    (htypes : ∀ decl ∈ decls, R.plainType? decl.name = some decl.type)
    (h : decls.foldlM define R = .ok D) : R.Defines decls D := by
  induction decls generalizing R with
  | nil =>
    obtain rfl := except_pure_eq_ok_iff.mp h
    exact ⟨rfl, rfl, by simp, fun _ _ => rfl, id⟩
  | cons decl decls ih =>
    rw [List.foldlM_cons, except_bind_eq_ok_iff] at h
    obtain ⟨R₁, hstep, hrest⟩ := h
    obtain ⟨entry, hentry, rfl⟩ := define_eq_ok_iff.mp hstep
    have hsame := plainType?_define hentry (htypes decl List.mem_cons_self)
    obtain ⟨hnotin, hdistinct⟩ := List.nodup_cons.mp hdistinct
    have hlater := ih hdistinct (fun other hother => by
      rw [hsame]
      exact htypes other (List.mem_cons_of_mem _ hother)) hrest
    refine ⟨hlater.declared, hlater.types.trans hsame, ?_, ?_, ?_⟩
    · intro other hother
      rcases List.mem_cons.mp hother with rfl | hother
      · refine ⟨entry, ?_, hentry⟩
        rw [hlater.kept _ hnotin]
        exact lookup_setEntry_self
      · obtain ⟨found, hfound, hof⟩ := hlater.defined other hother
        exact ⟨found, hfound, hof.congr hsame⟩
    · intro name hname
      rw [List.map_cons, List.mem_cons, not_or] at hname
      rw [hlater.kept name hname.2]
      exact entry?_setEntry_of_ne hname.1
    · intro hunique
      exact hlater.unique (nodup_keys_setEntry hunique)

/-- The second pass fails only on references that were already unknown before it. -/
theorem exists_foldlM_define (htypes : ∀ decl ∈ decls, R.plainType? decl.name = some decl.type)
    (hentries : ∀ decl ∈ decls, ∃ entry, R.IsEntryOf decl entry) :
    ∃ D, decls.foldlM define R = .ok D := by
  induction decls generalizing R with
  | nil => exact ⟨R, rfl⟩
  | cons decl decls ih =>
    obtain ⟨entry, hentry⟩ := hentries decl List.mem_cons_self
    have hstep := define_eq_ok_iff.mpr ⟨entry, hentry, rfl⟩
    have hsame := plainType?_define hentry (htypes decl List.mem_cons_self)
    obtain ⟨D, hD⟩ := ih
      (fun other hother => by
        rw [hsame]
        exact htypes other (List.mem_cons_of_mem _ hother))
      (fun other hother => by
        obtain ⟨found, hfound⟩ := hentries other (List.mem_cons_of_mem _ hother)
        exact ⟨found, hfound.congr hsame.symm⟩)
    exact ⟨D, by rw [List.foldlM_cons, except_bind_eq_ok_iff]; exact ⟨_, hstep, hD⟩⟩

end Catalog

end Interop
