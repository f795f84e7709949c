import Interop.Catalog.Builtin
import Interop.Proofs.Catalog.Extension

/-! Catalogs that come about by loading documents, one after another, after the built-in
declarations. A document that cannot be loaded leaves the catalog as it is. Nothing is assumed of the
notation of documents: all that is said holds for any function that reads declarations from them. -/

namespace Interop

namespace Catalog

variable {C D : Catalog} {decls : List TypeDecl} (read : String → Option (List TypeDecl))

/-- The catalog after a document was given to it, whether or not it could be loaded. -/
def load (C : Catalog) (source : String) : Catalog :=
  match C.extendFrom read source with
  | .ok D => D
  | .error _ => C

/-- The catalog after the built-in declarations and some documents. -/
def after (sources : List String) : Catalog := sources.foldl (load read) builtin

/-- What extensions preserve and rely on. -/
structure WellFormed (C : Catalog) : Prop where
  unique : C.Unique
  named : C.Named
  settled : C.Settled

/-- Declarations are filed under the names of their types. -/
theorem Named.of_extends (hC : C.Named) (h : C.Extends decls D) : D.Named := by
  intro name entry hentry
  rcases h.entry?_cases hentry with ⟨decl, -, rfl, hof⟩ | hold
  · rw [hof.type, decl.name_type]
  · exact hC name entry hold

theorem WellFormed.of_extends (hC : C.WellFormed) (h : C.Extends decls D) : D.WellFormed :=
  ⟨h.unique hC.unique, hC.named.of_extends h, hC.settled.of_extends h⟩

/-! ## The built-in declarations -/

theorem unique_empty : empty.Unique := by
  rw [Unique]
  decide

/-- Without declarations, a known type has no members. -/
theorem eq_of_empty_entry? {name : String} {entry : CatalogEntry}
    (h : empty.entry? name = some entry) : ∃ type, name = type.name ∧ entry = { type } := by
  obtain ⟨type, -, heq⟩ := List.mem_map.mp <| mem_of_entry? h
  obtain ⟨rfl, rfl⟩ := Prod.mk.inj heq
  exact ⟨type, rfl, rfl⟩

theorem named_empty : empty.Named := by
  intro name entry hentry
  obtain ⟨type, rfl, rfl⟩ := eq_of_empty_entry? hentry
  rfl

theorem extends_builtin : empty.Extends builtinTypes builtin := by
  have hloads : (empty.extend builtinTypes).isOk := by decide +kernel
  obtain ⟨C, hextend⟩ := except_isOk_iff.mp hloads
  have hbuiltin : builtin = C := by
    rw [builtin, hextend]
    rfl
  rw [hbuiltin]
  exact extends_of_extend hextend

/-- The type that a name stands for in every declaration of it, if there is one. -/
def fixedType? (name : String) : Option HostType :=
  match PrimitiveKind.ofTypeName? name with
  | some kind => some (.primitive kind)
  | none => if name = voidTypeName then some .void else none

theorem type_of_fixedType? {decl : TypeDecl} {type : HostType}
    (h : fixedType? decl.name = some type) : decl.type = type := by
  rw [fixedType?] at h
  cases hkind : PrimitiveKind.ofTypeName? decl.name with
  | some kind =>
    rw [hkind] at h
    rw [TypeDecl.type, hkind]
    exact Option.some.inj h
  | none =>
    rw [hkind] at h
    by_cases hvoid : decl.name = voidTypeName
    · simp only [if_pos hvoid] at h
      simp only [TypeDecl.type, hkind, if_pos hvoid]
      exact Option.some.inj h
    · simp only [if_neg hvoid] at h
      cases h

/-- The built-in declarations cover every name that is always known and not tied to one type. -/
theorem settled_builtin : builtin.Settled := by
  have hfixed : ∀ known ∈ empty.entries,
      known.1 ∈ builtinTypes.map (·.name) ∨ fixedType? known.1 = some known.2.type := by
    decide
  intro decl entry hentry hfree
  rw [extends_builtin.declared.mem_iff, List.mem_append, not_or] at hfree
  rw [extends_builtin.kept _ hfree.1] at hentry
  have hmem : (decl.name, entry) ∈ empty.entries := mem_of_entry? hentry
  rcases hfixed _ hmem with hdeclared | htype
  · exact absurd hdeclared hfree.1
  · exact (type_of_fixedType? htype).symm

theorem wellFormed_builtin : builtin.WellFormed :=
  ⟨extends_builtin.unique unique_empty, named_empty.of_extends extends_builtin, settled_builtin⟩

/-! ## Documents -/

theorem extendFrom_eq_ok_iff {source : String} :
    C.extendFrom read source = .ok D ↔
      ∃ decls, read source = some decls ∧ C.extend decls = .ok D := by
  rw [extendFrom]
  cases read source <;> simp

/-- A document extends a catalog by its declarations, or not at all. -/
theorem load_cases (C : Catalog) (source : String) :
    C.load read source = C ∨ ∃ decls, C.Extends decls (C.load read source) := by
  rw [load]
  cases hload : C.extendFrom read source with
  | error e => exact .inl rfl
  | ok D =>
    obtain ⟨decls, -, hextend⟩ := (extendFrom_eq_ok_iff read).mp hload
    exact .inr ⟨decls, extends_of_extend hextend⟩

/-- What every extension keeps is kept by loading documents. -/
theorem load_induction {P : Catalog → Prop} {start : Catalog} (hstart : P start)
    (hstep : ∀ C decls D, P C → C.Extends decls D → P D) (sources : List String) :
    P (sources.foldl (load read) start) := by
  induction sources generalizing start with
  | nil => exact hstart
  | cons source sources ih =>
    refine ih ?_
    rcases load_cases read start source with hsame | ⟨decls, hextends⟩
    · rw [hsame]
      exact hstart
    · exact hstep start decls _ hstart hextends

/-- What holds of the built-in catalog and is kept by every extension of a well-formed catalog
holds whatever documents are loaded. -/
theorem after_induction {P : Catalog → Prop} (hbuiltin : P builtin)
    (hstep : ∀ C decls D, C.WellFormed → P C → C.Extends decls D → P D)
    (sources : List String) : P (after read sources) := by
  have hboth : (after read sources).WellFormed ∧ P (after read sources) := by
    refine load_induction (P := fun C => C.WellFormed ∧ P C) read ⟨wellFormed_builtin, hbuiltin⟩ ?_
      sources
    rintro C decls D ⟨hwell, hC⟩ h
    exact ⟨hwell.of_extends h, hstep C decls D hwell hC h⟩
  exact hboth.2

/-- A catalog that documents of some notation were loaded into, one without declarations or the
built-in one. -/
def Reached (C : Catalog) : Prop :=
  ∃ read sources, C = sources.foldl (load read) empty ∨ C = after read sources

theorem Reached.induction {P : Catalog → Prop} (hempty : P empty)
    (hstep : ∀ C decls D, P C → C.Extends decls D → P D) {C : Catalog} (hC : C.Reached) : P C := by
  obtain ⟨read, sources, rfl | rfl⟩ := hC
  · exact load_induction read hempty hstep sources
  · exact load_induction read (hstep _ _ _ hempty extends_builtin) hstep sources

theorem wellFormed_after (sources : List String) : (after read sources).WellFormed :=
  after_induction read wellFormed_builtin (fun _ _ _ hC _ h => hC.of_extends h) sources

end Catalog

end Interop
