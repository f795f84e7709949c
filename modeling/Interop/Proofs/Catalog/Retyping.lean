import Interop.Proofs.Catalog.Listing
import Interop.Proofs.Catalog.Order

/-! Types of known names. A name that a catalog knows keeps its type whatever documents are loaded
later, unless one of them declares `System.Object` or `System.String`, known so far without a
declaration, as a value type. Then this name and those of its arrays change their types. -/

namespace Interop

/-- A declaration makes `System.Object` or `System.String` a value type. -/
def TypeDecl.Retypes (decl : TypeDecl) : Prop :=
  decl.kind = .value ∧ (decl.name = objectTypeName ∨ decl.name = stringTypeName)

instance (decl : TypeDecl) : Decidable decl.Retypes := inferInstanceAs (Decidable (_ ∧ _))

theorem TypeDecl.Retypes.plain {decl : TypeDecl} (h : decl.Retypes) :
    (splitArrayName decl.name).2 = 0 := by
  rcases h.2 with hname | hname <;> rw [hname] <;> decide

namespace Catalog

variable {C D E : Catalog} {decls later : List TypeDecl} {name : String} {type : HostType}

/-! ## One declaration -/

theorem type_of_fixedType?_eq_none {decl : TypeDecl} (h : fixedType? decl.name = none) :
    decl.type = match decl.kind with
      | .reference => .reference decl.name
      | .value => .value decl.name := by
  unfold fixedType? at h
  split at h
  · cases h
  · rename_i hkind
    have hnotVoid : decl.name ≠ voidTypeName := by
      intro hvoid
      rw [if_pos hvoid] at h
      cases h
    rw [TypeDecl.type, hkind]
    exact if_neg hnotVoid

/-- A type that is always known stays what it is in every other declaration of its name. -/
theorem type_eq_iff_of_intrinsic (htype : type ∈ intrinsicTypes) {decl : TypeDecl}
    (hname : type.name = decl.name) : decl.type = type ↔ ¬ decl.Retypes := by
  have hcases : ∀ type ∈ intrinsicTypes,
      (fixedType? type.name = some type ∧ type.name ≠ objectTypeName ∧
        type.name ≠ stringTypeName) ∨
      (fixedType? type.name = none ∧ type = .reference type.name ∧
        (type.name = objectTypeName ∨ type.name = stringTypeName)) := by
    decide
  rcases hcases type htype with ⟨hfixed, hobject, hstring⟩ | ⟨hfree, hreference, hnames⟩
  · rw [hname] at hfixed hobject hstring
    refine iff_of_true (type_of_fixedType? hfixed) ?_
    rintro ⟨-, hsame | hsame⟩
    · exact hobject hsame
    · exact hstring hsame
  · rw [hname] at hfree hreference hnames
    rw [type_of_fixedType?_eq_none hfree, hreference, TypeDecl.Retypes]
    cases decl.kind <;> simp [hnames]

/-! ## Plain names -/

/-- A later type of a name is that of its declaration, or the type that it had. -/
theorem plainType?_kept_iff (hC : C.Reached) (h : C.Types decls D)
    (hfresh : ∀ decl ∈ decls, decl.name ∉ C.declared) (hfound : C.plainType? name = some type) :
    D.plainType? name = some type ↔ ∀ decl ∈ decls, decl.Retypes → decl.name ≠ name := by
  have hsame : ∀ decl ∈ decls, decl.name = name → (decl.type = type ↔ ¬ decl.Retypes) := by
    rintro decl hdecl rfl
    obtain ⟨entry, hentry, rfl⟩ := Option.map_eq_some_iff.mp hfound
    cases hC.origin hentry with
    | declared _ hdeclared => exact absurd hdeclared (hfresh decl hdecl)
    | intrinsic _ htype hname => exact type_eq_iff_of_intrinsic htype hname
  constructor
  · rintro hkept decl hdecl hretypes rfl
    rw [h.declared decl hdecl] at hkept
    exact (hsame decl hdecl rfl).mp (Option.some.inj hkept) hretypes
  · intro hnone
    by_cases hname : name ∈ decls.map (·.name)
    · obtain ⟨decl, hdecl, rfl⟩ := List.mem_map.mp hname
      rw [h.declared decl hdecl, (hsame decl hdecl rfl).mpr fun hretypes =>
        hnone decl hdecl hretypes rfl]
    · rw [h.others name hname, hfound]

/-! ## Array names -/

theorem arrayOf_inj {element element' : HostType} {rank : Nat} :
    element.arrayOf rank = element'.arrayOf rank ↔ element = element' := by
  induction rank with
  | zero => rfl
  | succ rank ih => simp only [HostType.arrayOf, HostType.array.injEq, ih]

/-- A plain name is what is left of those of its arrays. -/
theorem ne_base_iff {base : String} (hbase : (splitArrayName base).2 = 0) :
    base ≠ (splitArrayName name).1 ↔ ∀ rank, name ≠ arrayName base rank := by
  constructor
  · rintro hne rank rfl
    rw [splitArrayName_arrayName hbase] at hne
    exact hne rfl
  · rintro hnone rfl
    exact hnone _ (arrayName_splitArrayName name).symm

/-! ## Loading -/

theorem Types.append (h : C.Types decls D) (h' : D.Types later E)
    (hapart : ∀ decl ∈ decls, decl.name ∉ later.map (·.name)) : C.Types (decls ++ later) E where
  declared := by
    intro decl hdecl
    rcases List.mem_append.mp hdecl with hdecl | hdecl
    · rw [h'.others _ (hapart decl hdecl), h.declared decl hdecl]
    · exact h'.declared decl hdecl
  others := by
    intro name hname
    rw [List.map_append, List.mem_append, not_or] at hname
    rw [h'.others name hname.2, h.others name hname.1]

/-- However often declarations are loaded, no name is declared twice, and each is of the type of its
declaration. -/
theorem types_of_foldlM {parts : List (List TypeDecl)} (h : parts.foldlM extend C = .ok D) :
    C.Types parts.flatten D ∧ ∀ decl ∈ parts.flatten, decl.name ∉ C.declared := by
  induction parts generalizing C with
  | nil =>
    obtain rfl := except_pure_eq_ok_iff.mp h
    exact ⟨(Extends.refl C).types, by simp⟩
  | cons part parts ih =>
    rw [List.foldlM_cons, except_bind_eq_ok_iff] at h
    obtain ⟨C₁, hfirst, hrest⟩ := h
    have hstep := extends_of_extend hfirst
    obtain ⟨htypes, hfresh⟩ := ih hrest
    have hlater : ∀ decl ∈ parts.flatten, decl.name ∉ part.map (·.name) ∧
        decl.name ∉ C.declared := by
      intro decl hdecl
      have hnew := hfresh decl hdecl
      rwa [hstep.declared.mem_iff, List.mem_append, not_or] at hnew
    rw [List.flatten_cons]
    refine ⟨hstep.types.append htypes ?_, ?_⟩
    · intro decl hdecl hmem
      obtain ⟨other, hother, hname⟩ := List.mem_map.mp hmem
      refine (hlater other hother).1 ?_
      rw [hname]
      exact List.mem_map_of_mem hdecl
    · intro decl hdecl
      rcases List.mem_append.mp hdecl with hdecl | hdecl
      · exact hstep.fresh decl hdecl
      · exact (hlater decl hdecl).2

/-- **Known names keep their types.** A name that is known in a catalog that documents were loaded
into has the same type after further documents are loaded, exactly if none of them declares
`System.Object` or `System.String` as a value type and the name is that or an array name of it. -/
theorem type?_kept_iff (hC : C.Reached) {read : String → Option (List TypeDecl)}
    {sources : List String} (hload : sources.foldlM (extendFrom read) C = .ok D)
    (hfound : C.type? name = some type) :
    D.type? name = some type ↔
      ∀ decl ∈ declaredIn read sources, decl.Retypes → ∀ rank, name ≠ arrayName decl.name rank := by
  obtain ⟨htypes, hfresh⟩ := types_of_foldlM (foldlM_extend_of_sources read hload)
  rw [type?_eq_plainType?, Option.map_eq_some_iff] at hfound
  obtain ⟨element, helement, rfl⟩ := hfound
  have hsame : D.type? name = some (element.arrayOf (splitArrayName name).2) ↔
      D.plainType? (splitArrayName name).1 = some element := by
    rw [type?_eq_plainType?, Option.map_eq_some_iff]
    simp only [arrayOf_inj, exists_eq_right]
  rw [hsame, plainType?_kept_iff hC htypes hfresh helement]
  refine forall_congr' fun decl => forall_congr' fun _ => forall_congr' fun hretypes => ?_
  exact ne_base_iff hretypes.plain

/-- A value type is declared, and after it members of `System.String`. -/
theorem type?_kept_iff_string :
    let sources := ["types = [\x7b name = \"Point\", kind = \"struct\" \x7d]",
      "types = [\x7b name = \"System.String\", properties = [
        \x7b name = \"Length\", type = \"System.Int32\" \x7d] \x7d]"]
    empty.Reached ∧ empty.type? "System.String[]" = some (.array .string) ∧
      ∃ D, sources.foldlM (extendFrom declarations?) empty = .ok D ∧
        D.type? "System.String[]" = some (.array .string) := by
  intro sources
  have hreached : empty.Reached := ⟨declarations?, [], .inl rfl⟩
  have hruns : empty.type? "System.String[]" = some (.array .string) ∧
      (sources.foldlM (extendFrom declarations?) empty).isOk ∧
      ∀ decl ∈ declaredIn declarations? sources, ¬ decl.Retypes := by
    decide +kernel
  obtain ⟨hfound, hloads, hnone⟩ := hruns
  obtain ⟨D, hload⟩ := except_isOk_iff.mp hloads
  refine ⟨hreached, hfound, D, hload, (type?_kept_iff hreached hload hfound).mpr ?_⟩
  exact fun decl hdecl hretypes => absurd hretypes (hnone decl hdecl)

/-- `System.String` is a reference type until it is declared as a value type. -/
theorem type?_not_kept_string :
    let source := "types = [\x7b name = \"System.String\", kind = \"struct\" \x7d]"
    empty.Reached ∧ empty.type? "System.String" = some .string ∧
      ∃ D, empty.extendFromText source = .ok D ∧ D.type? "System.String" ≠ some .string := by
  intro source
  have hruns : empty.type? "System.String" = some .string ∧
      (empty.extendFromText source).toOption.map (·.type? "System.String") =
        some (some (.value "System.String")) := by
    decide +kernel
  obtain ⟨hfound, hlater⟩ := hruns
  cases hload : empty.extendFromText source with
  | error _ =>
    rw [hload] at hlater
    cases hlater
  | ok D =>
    rw [hload] at hlater
    have hvalue : D.type? "System.String" = some (.value "System.String") :=
      Option.some.inj hlater
    refine ⟨⟨declarations?, [], .inl rfl⟩, hfound, D, rfl, ?_⟩
    rw [hvalue]
    decide

end Catalog

end Interop
