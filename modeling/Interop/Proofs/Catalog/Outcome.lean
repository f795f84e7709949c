import Interop.Proofs.Catalog.Listing
import Mathlib.Data.List.Induction

/-! Outcomes of loading. A list of declarations is refused for the first name that is declared a
second time, and if there is none for the first reference to an unknown type. The order is that of
the document, and what counts as known is the same for every reference: the names of the catalog and
all names that are declared. Otherwise the declarations are loaded. -/

namespace Interop

/-! ## References -/

/-- A name of a type, with the type and the member that refer to it. -/
structure Reference where
  name : String
  owner : String
  member : String
deriving DecidableEq, Repr

/-- The error that an unknown name gives rise to. -/
def Reference.fault (reference : Reference) : CatalogError :=
  .unknownType reference.name reference.owner reference.member

namespace TypeDecl

def reference (decl : TypeDecl) (member name : String) : Reference :=
  { name, owner := decl.name, member }

/-- The parameters of a method, and what it returns. -/
def methodReferences (decl : TypeDecl) (method : MethodDecl) : List Reference :=
  method.params.map (decl.reference method.name) ++
    method.returns.toList.map (decl.reference method.name)

def memberReferences (decl : TypeDecl) : List Reference :=
  decl.fields.map (fun field => decl.reference field.name field.type) ++
    (decl.properties.map (fun property => decl.reference property.name property.type) ++
      decl.methods.flatMap decl.methodReferences)

/-- What a declaration refers to, in the order of the document. -/
def references (decl : TypeDecl) : List Reference :=
  decl.base.toList.map (decl.reference Catalog.baseMember) ++ decl.memberReferences

end TypeDecl

namespace Catalog

variable {C D R : Catalog} {decl : TypeDecl} {decls : List TypeDecl} {name : String}
  {references later : List Reference} {α β : Type}

/-! ## Computations that resolve references -/

/-- The computation fails for the first of the references that the catalog does not know, and
succeeds if it knows them all. -/
def Resolves (C : Catalog) (references : List Reference) (x : Except CatalogError α) : Prop :=
  match references.find? fun reference => (C.type? reference.name).isNone with
  | some reference => x = .error reference.fault
  | none => ∃ a, x = .ok a

theorem Resolves.eq_error {x : Except CatalogError α} {reference : Reference}
    {before after : List Reference} (h : C.Resolves (before ++ reference :: after) x)
    (hbefore : ∀ earlier ∈ before, (C.type? earlier.name).isSome)
    (hunknown : C.type? reference.name = none) : x = .error reference.fault := by
  have hfind : (before ++ reference :: after).find? (fun reference =>
      (C.type? reference.name).isNone) = some reference := by
    refine List.find?_eq_some_iff_append.mpr ⟨?_, before, after, rfl, fun earlier hearlier => ?_⟩
    · rw [hunknown, Option.isNone_none]
    · rw [Option.not_isNone]
      exact hbefore earlier hearlier
  rwa [Resolves, hfind] at h

theorem Resolves.exists_ok {x : Except CatalogError α} (h : C.Resolves references x)
    (hknown : ∀ reference ∈ references, (C.type? reference.name).isSome) : ∃ a, x = .ok a := by
  have hfind : references.find? (fun reference => (C.type? reference.name).isNone) = none := by
    refine List.find?_eq_none.mpr fun reference hreference => ?_
    simpa [Option.isSome_iff_ne_none] using hknown reference hreference
  rwa [Resolves, hfind] at h

theorem Resolves.congr {x : Except CatalogError α} (h : C.type? = D.type?)
    (hx : C.Resolves references x) : D.Resolves references x := by
  rwa [Resolves, ← h]

theorem Resolves.pure (a : α) : C.Resolves [] (Pure.pure a) := ⟨a, rfl⟩

theorem resolves_resolve (decl : TypeDecl) (member name : String) :
    C.Resolves [decl.reference member name] (C.resolve decl member name) := by
  rw [Resolves, resolve]
  cases hname : C.type? name with
  | none => simp [hname, Reference.fault, TypeDecl.reference]
  | some type => simp [hname, TypeDecl.reference]

theorem Resolves.bind {x : Except CatalogError α} {f : α → Except CatalogError β}
    (hx : C.Resolves references x) (hf : ∀ a, x = .ok a → C.Resolves later (f a)) :
    C.Resolves (references ++ later) (x >>= f) := by
  unfold Resolves at hx ⊢
  rw [List.find?_append]
  split at hx
  · rename_i reference hfind
    rw [hfind, hx]
    rfl
  · rename_i hfind
    obtain ⟨a, rfl⟩ := hx
    rw [hfind]
    exact hf a rfl

theorem Resolves.map {x : Except CatalogError α} (f : α → β) (hx : C.Resolves references x) :
    C.Resolves references (x >>= fun a => Pure.pure (f a)) := by
  simpa using hx.bind fun a _ => .pure (f a)

theorem Resolves.mapM {f : α → Except CatalogError β} {xs : List α} {parts : α → List Reference}
    (h : ∀ x ∈ xs, C.Resolves (parts x) (f x)) : C.Resolves (xs.flatMap parts) (xs.mapM f) := by
  induction xs with
  | nil => exact .pure []
  | cons x xs ih =>
    rw [List.mapM_cons, List.flatMap_cons]
    obtain ⟨hx, hxs⟩ := List.forall_mem_cons.mp h
    exact hx.bind fun y _ => (ih hxs).map (y :: ·)

/-- A list in which every element refers to one name. -/
theorem Resolves.mapM_single {f : α → Except CatalogError β} {xs : List α} {part : α → Reference}
    (h : ∀ x, C.Resolves [part x] (f x)) : C.Resolves (xs.map part) (xs.mapM f) := by
  rw [List.map_eq_flatMap]
  exact .mapM fun x _ => h x

/-! ## The second pass -/

theorem resolves_resolveMethod (decl : TypeDecl) (method : MethodDecl) :
    C.Resolves (decl.methodReferences method) (C.resolveMethod decl method) := by
  refine (Resolves.mapM_single (resolves_resolve decl method.name)).bind fun params _ => ?_
  cases method.returns with
  | none => exact .pure _
  | some name => exact (resolves_resolve decl method.name name).map _

theorem resolves_resolveMembers (decl : TypeDecl) :
    C.Resolves decl.memberReferences (C.resolveMembers decl) := by
  refine Resolves.bind (.mapM_single fun field => (resolves_resolve decl field.name _).map _)
    fun fields _ => ?_
  refine Resolves.bind (.mapM_single fun property => (resolves_resolve decl property.name _).map _)
    fun properties _ => ?_
  exact (Resolves.mapM fun method _ => resolves_resolveMethod decl method).map _

theorem resolves_resolveEntry (decl : TypeDecl) :
    C.Resolves decl.references (C.resolveEntry decl) := by
  rw [resolveEntry_eq, TypeDecl.references]
  cases decl.base with
  | none => exact resolves_resolveMembers decl
  | some base =>
    exact (resolves_resolve decl baseMember base).bind fun _ _ => resolves_resolveMembers decl

theorem resolves_define (decl : TypeDecl) : C.Resolves decl.references (C.define decl) :=
  (resolves_resolveEntry decl).map _

/-- All references of the second pass are resolved in the catalog that it begins with. -/
theorem resolves_foldlM_define
    (htypes : ∀ decl ∈ decls, R.plainType? decl.name = some decl.type) :
    R.Resolves (decls.flatMap TypeDecl.references) (decls.foldlM define R) := by
  induction decls generalizing R with
  | nil => exact .pure R
  | cons decl decls ih =>
    rw [List.foldlM_cons, List.flatMap_cons]
    obtain ⟨hdecl, hdecls⟩ := List.forall_mem_cons.mp htypes
    refine (resolves_define decl).bind fun R₁ hstep => ?_
    obtain ⟨entry, hentry, rfl⟩ := define_eq_ok_iff.mp hstep
    have hsame := plainType?_define hentry hdecl
    refine (ih fun other hother => ?_).congr ?_
    · rw [hsame]
      exact hdecls other hother
    · funext name
      rw [type?_eq_plainType?, type?_eq_plainType?, hsame]

/-! ## The first pass -/

/-- No name is declared twice, nor is one that the catalog has declared. -/
def Fresh (C : Catalog) (decls : List TypeDecl) : Prop :=
  (decls.map (·.name)).Nodup ∧ ∀ decl ∈ decls, decl.name ∉ C.declared

/-- The first name that is declared a second time: by the catalog or by a declaration before it. -/
def FirstRepeat (C : Catalog) (decls : List TypeDecl) (name : String) : Prop :=
  ∃ before decl after, decls = before ++ decl :: after ∧ decl.name = name ∧ C.Fresh before ∧
    (name ∈ C.declared ∨ name ∈ before.map (·.name))

/-- One more declaration. -/
theorem Fresh.concat (h : C.Fresh decls) (hdeclared : decl.name ∉ C.declared)
    (hbefore : decl.name ∉ decls.map (·.name)) : C.Fresh (decls ++ [decl]) := by
  refine ⟨?_, ?_⟩
  · rw [List.map_append, List.map_singleton]
    exact h.1.append (List.nodup_singleton _) (List.disjoint_singleton.mpr hbefore)
  · intro other hother
    rcases List.mem_append.mp hother with hother | hother
    · exact h.2 other hother
    · rwa [List.mem_singleton.mp hother]

theorem fresh_or_exists_firstRepeat (C : Catalog) (decls : List TypeDecl) :
    C.Fresh decls ∨ ∃ name, C.FirstRepeat decls name := by
  -- From the right: what is repeated first does not depend on the declarations after it.
  induction decls using List.reverseRecOn with
  | nil => exact .inl ⟨List.nodup_nil, by simp⟩
  | append_singleton decls decl ih =>
    rcases ih with hfresh | ⟨name, before, other, after, rfl, hrepeat⟩
    · by_cases hdecl : decl.name ∈ C.declared ∨ decl.name ∈ decls.map (·.name)
      · exact .inr ⟨decl.name, decls, decl, [], rfl, rfl, hfresh, hdecl⟩
      · rw [not_or] at hdecl
        exact .inl (hfresh.concat hdecl.1 hdecl.2)
    · exact .inr ⟨name, before, other, after ++ [decl], by simp, hrepeat⟩

theorem foldlM_register_of_firstRepeat (h : C.FirstRepeat decls name) :
    decls.foldlM register C = .error (.duplicateType name) := by
  obtain ⟨before, decl, after, rfl, rfl, hfresh, hrepeat⟩ := h
  obtain ⟨R, hR⟩ := exists_foldlM_register hfresh.1 hfresh.2
  have hdeclared : decl.name ∈ R.declared := by
    rw [(registers_of_foldlM hR).declared.mem_iff, List.mem_append]
    exact hrepeat.symm
  have hstep : R.register decl = .error (.duplicateType decl.name) := by
    rw [register, if_pos hdeclared]
  rw [List.foldlM_append, hR]
  change (decl :: after).foldlM register R = _
  rw [List.foldlM_cons, hstep]
  rfl

/-! ## What is known -/

/-- A name that is known once the declarations are: without its array suffixes it is a name of the
catalog or declared. -/
def KnownWith (C : Catalog) (decls : List TypeDecl) (name : String) : Prop :=
  ∃ base rank, name = arrayName base rank ∧ (∀ element, base ≠ element ++ arraySuffix) ∧
    (base ∈ C.typeNames ∨ base ∈ decls.map (·.name))

theorem knownWith_iff :
    C.KnownWith decls name ↔ (splitArrayName name).1 ∈ C.typeNames ∨
      (splitArrayName name).1 ∈ decls.map (·.name) := by
  constructor
  · rintro ⟨base, rank, rfl, hplain, hknown⟩
    rwa [splitArrayName_arrayName (splitArrayName_rank_eq_zero_iff.mpr hplain)]
  · intro hknown
    exact ⟨_, _, (arrayName_splitArrayName name).symm,
      splitArrayName_rank_eq_zero_iff.mp (splitArrayName_base name), hknown⟩

theorem Types.isSome_plainType?_iff (h : C.Types decls D) :
    (D.plainType? name).isSome ↔ name ∈ C.typeNames ∨ name ∈ decls.map (·.name) := by
  by_cases hname : name ∈ decls.map (·.name)
  · obtain ⟨decl, hdecl, rfl⟩ := List.mem_map.mp hname
    simp only [h.declared decl hdecl, Option.isSome_some, hname, or_true]
  · rw [h.others name hname, plainType?, Option.isSome_map, mem_typeNames_iff, or_iff_left hname]

theorem Types.isSome_type?_iff (h : C.Types decls D) :
    (D.type? name).isSome ↔ C.KnownWith decls name := by
  rw [knownWith_iff, type?_eq_plainType?, Option.isSome_map, h.isSome_plainType?_iff]

/-- The first reference in the order of the document that stays unknown. -/
def FirstUnknown (C : Catalog) (decls : List TypeDecl) (reference : Reference) : Prop :=
  ∃ before after, decls.flatMap TypeDecl.references = before ++ reference :: after ∧
    ¬ C.KnownWith decls reference.name ∧ ∀ earlier ∈ before, C.KnownWith decls earlier.name

/-- Every reference is to a known type. -/
def Complete (C : Catalog) (decls : List TypeDecl) : Prop :=
  ∀ reference ∈ decls.flatMap TypeDecl.references, C.KnownWith decls reference.name

theorem complete_or_exists_firstUnknown (C : Catalog) (decls : List TypeDecl) :
    C.Complete decls ∨ ∃ reference, C.FirstUnknown decls reference := by
  classical
  cases hfind : (decls.flatMap TypeDecl.references).find?
      fun reference => ¬ C.KnownWith decls reference.name with
  | none =>
    refine .inl fun reference hreference => ?_
    simpa using List.find?_eq_none.mp hfind reference hreference
  | some reference =>
    obtain ⟨hunknown, before, after, hsplit, hbefore⟩ := List.find?_eq_some_iff_append.mp hfind
    refine .inr ⟨reference, before, after, hsplit, by simpa using hunknown, ?_⟩
    simpa using hbefore

/-! ## Outcomes -/

/-- What a list of declarations is refused for. A repeated name comes before every reference. -/
inductive Refused (C : Catalog) (decls : List TypeDecl) : CatalogError → Prop
  | repeated (name : String) : C.FirstRepeat decls name → C.Refused decls (.duplicateType name)
  | unknown (reference : Reference) : C.Fresh decls → C.FirstUnknown decls reference →
      C.Refused decls reference.fault

theorem extend_of_firstRepeat (h : C.FirstRepeat decls name) :
    C.extend decls = .error (.duplicateType name) := by
  rw [extend, foldlM_register_of_firstRepeat h]
  rfl

/-- Without repeated names, the second pass of loading is all that matters. -/
theorem Fresh.resolves (h : C.Fresh decls) :
    ∃ R, C.Types decls R ∧ R.Resolves (decls.flatMap TypeDecl.references) (C.extend decls) := by
  obtain ⟨R, hR⟩ := exists_foldlM_register h.1 h.2
  have hregisters := registers_of_foldlM hR
  refine ⟨R, hregisters.types, ?_⟩
  rw [extend, hR]
  exact resolves_foldlM_define hregisters.typed

theorem extend_of_firstUnknown {reference : Reference} (hfresh : C.Fresh decls)
    (h : C.FirstUnknown decls reference) : C.extend decls = .error reference.fault := by
  obtain ⟨R, htypes, hresolves⟩ := hfresh.resolves
  obtain ⟨before, after, hsplit, hunknown, hbefore⟩ := h
  rw [hsplit] at hresolves
  refine hresolves.eq_error (fun earlier hearlier => ?_) ?_
  · exact htypes.isSome_type?_iff.mpr (hbefore earlier hearlier)
  · rwa [← htypes.isSome_type?_iff, Option.not_isSome_iff_eq_none] at hunknown

theorem exists_extend_of_complete (hfresh : C.Fresh decls) (h : C.Complete decls) :
    ∃ D, C.extend decls = .ok D := by
  obtain ⟨R, htypes, hresolves⟩ := hfresh.resolves
  refine hresolves.exists_ok fun reference hreference => ?_
  exact htypes.isSome_type?_iff.mpr (h reference hreference)

theorem Refused.extend_eq {error : CatalogError} (h : C.Refused decls error) :
    C.extend decls = .error error := by
  cases h with
  | repeated name hrepeat => exact extend_of_firstRepeat hrepeat
  | unknown reference hfresh hunknown => exact extend_of_firstUnknown hfresh hunknown

theorem refused_or_complete (C : Catalog) (decls : List TypeDecl) :
    (∃ error, C.Refused decls error) ∨ (C.Fresh decls ∧ C.Complete decls) := by
  rcases fresh_or_exists_firstRepeat C decls with hfresh | ⟨name, hrepeat⟩
  · rcases complete_or_exists_firstUnknown C decls with hcomplete | ⟨reference, hunknown⟩
    · exact .inr ⟨hfresh, hcomplete⟩
    · exact .inl ⟨_, .unknown reference hfresh hunknown⟩
  · exact .inl ⟨_, .repeated name hrepeat⟩

/-- **Outcomes of loading.** Declarations are refused for the first repeated name, or else for the
first reference to an unknown type, and otherwise loaded. A declared type is known to all of them,
wherever it stands. -/
theorem extend_outcome (C : Catalog) (decls : List TypeDecl) :
    (∀ error, C.extend decls = .error error ↔ C.Refused decls error) ∧
      ((∃ D, C.extend decls = .ok D) ↔ C.Fresh decls ∧ C.Complete decls) ∧
      ∀ name owner member, C.extend decls = .error (.unknownType name owner member) →
        ∀ decl ∈ decls, (∀ element, decl.name ≠ element ++ arraySuffix) →
        ∀ rank, name ≠ arrayName decl.name rank := by
  have hrefused : ∀ error, C.extend decls = .error error ↔ C.Refused decls error := by
    refine fun error => ⟨fun herror => ?_, Refused.extend_eq⟩
    rcases refused_or_complete C decls with ⟨other, hother⟩ | ⟨hfresh, hcomplete⟩
    · obtain rfl : error = other := Except.error.inj (herror.symm.trans hother.extend_eq)
      exact hother
    · obtain ⟨D, hD⟩ := exists_extend_of_complete hfresh hcomplete
      cases herror.symm.trans hD
  refine ⟨hrefused, ⟨?_, fun h => exists_extend_of_complete h.1 h.2⟩, ?_⟩
  · rintro ⟨D, hD⟩
    refine (refused_or_complete C decls).resolve_left ?_
    rintro ⟨error, herror⟩
    cases herror.extend_eq.symm.trans hD
  · intro name owner member herror decl hdecl hplain rank hname
    cases (hrefused _).mp herror with
    | unknown reference hfresh hunknown =>
      obtain ⟨-, -, -, hunknown, -⟩ := hunknown
      exact hunknown ⟨decl.name, rank, hname, hplain, .inr (List.mem_map_of_mem hdecl)⟩

/-- A name that is repeated later comes before a reference to an unknown type. -/
example : empty.extend [{ name := "A", base := some "B" }, { name := "A" }] =
    .error (.duplicateType "A") := by decide +kernel

end Catalog

end Interop
