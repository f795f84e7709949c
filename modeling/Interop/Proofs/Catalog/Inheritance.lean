import Interop.Catalog.Document
import Interop.Proofs.Analysis.ArrayName
import Interop.Proofs.Catalog.Lineage
import Interop.Proofs.Catalog.Reach

/-! Inheritance from `System.Object`. A lookup finds an instance member exactly if a type that is
derived from declares one. Every entry passes a search on to `System.Object` in the end, unless a
base in between has no entry of its own, is the type of no value, or leads back to where the search
was before. -/

namespace Interop

open Relation

/-- An instance member as it is looked up: by its name, and a method by the number of its
parameters besides. -/
inductive InstanceMember where
  | field (name : String)
  | property (name : String)
  | method (name : String) (arity : Nat)

/-- The entry has such a member. -/
def CatalogEntry.Declares (entry : CatalogEntry) : InstanceMember → Prop
  | .field name => ∃ field ∈ entry.fields, field.name = name ∧ field.isStatic = false
  | .property name =>
    ∃ property ∈ entry.properties, property.name = name ∧ property.isStatic = false
  | .method name arity =>
    ∃ method ∈ entry.methods, method.name = name ∧ method.isStatic = false ∧ method.arity = arity

namespace Catalog

variable {C D : Catalog} {decls : List TypeDecl} {name : String} {type : HostType}

/-- Looking up such a member on the type finds one. -/
def Finds (C : Catalog) (type : HostType) : InstanceMember → Prop
  | .field name => (C.field? false type name).isSome
  | .property name => (C.property? false type name).isSome
  | .method name arity => (C.method? false type name arity).isSome

theorem finds_iff (hC : C.Unique) {member : InstanceMember} :
    C.Finds type member ↔ ∃ ancestor entry, C.Derives type ancestor ∧
      C.entry? ancestor = some entry ∧ entry.Declares member := by
  cases member with
  | field name => simp [Finds, field?, findMember?_isSome_iff hC, CatalogEntry.Declares]
  | property name => simp [Finds, property?, findMember?_isSome_iff hC, CatalogEntry.Declares]
  | method name arity =>
    simp [Finds, method?, findMember?_isSome_iff hC, CatalogEntry.Declares, and_assoc]

/-! ## What searches rely on -/

/-- Names that are known stay known, though perhaps as another type. -/
theorem Extends.contains (h : C.Extends decls D) (hname : C.contains name) : D.contains name := by
  simp only [Catalog.contains, type?_eq_plainType?, Option.isSome_map] at hname ⊢
  by_cases hdeclared : (splitArrayName name).1 ∈ decls.map (·.name)
  · obtain ⟨decl, hdecl, hsame⟩ := List.mem_map.mp hdeclared
    rw [← hsame, h.types.declared decl hdecl]
    rfl
  · rw [h.types.others _ hdeclared]
    exact hname

/-- Names and types of entries belong together, and bases are known by name. -/
structure Searchable (C : Catalog) : Prop where
  unique : C.Unique
  named : C.Named
  bases : ∀ name entry base, C.entry? name = some entry → entry.base = some base → C.contains base

theorem searchable_empty : empty.Searchable where
  unique := unique_empty
  named := named_empty
  bases := by
    intro name entry base hentry hbase
    obtain ⟨type, rfl, rfl⟩ := eq_of_empty_entry? hentry
    cases hbase

theorem Searchable.of_extends (hC : C.Searchable) (h : C.Extends decls D) : D.Searchable where
  unique := h.unique hC.unique
  named := hC.named.of_extends h
  bases := by
    intro name entry base hentry hbase
    rcases h.entry?_cases hentry with ⟨decl, -, -, hof⟩ | hold
    · rw [hof.base] at hbase
      obtain ⟨type, htype⟩ := hof.baseKnown base hbase
      exact Option.isSome_iff_exists.mpr ⟨type, htype⟩
    · exact h.contains (hC.bases name entry base hold hbase)

theorem Reached.searchable (hC : C.Reached) : C.Searchable :=
  hC.induction searchable_empty fun _ _ _ hC h => hC.of_extends h

/-- A known name without an entry of its own is an array name. -/
theorem rank_pos_of_contains (hname : C.contains name) (hentry : C.entry? name = none) :
    0 < (splitArrayName name).2 := by
  by_contra hplain
  have hrank : (splitArrayName name).2 = 0 := Nat.eq_zero_of_not_pos hplain
  rw [Catalog.contains, type?, splitArrayName_of_plain hrank] at hname
  simp [hentry] at hname

/-- The members of a type that is found are looked up from an entry, unless it is an array type. -/
theorem Named.memberOwner_cases (hnamed : C.Named) (hfound : C.type? name = some type) :
    memberOwner type = arrayTypeName ∨ ∃ entry, C.entry? (memberOwner type) = some entry := by
  rw [type?_eq_plainType?, Option.map_eq_some_iff] at hfound
  obtain ⟨element, helement, harray⟩ := hfound
  obtain ⟨entry, hentry, htype⟩ := Option.map_eq_some_iff.mp helement
  cases hrank : (splitArrayName name).2 with
  | succ rank =>
    rw [hrank] at harray
    rw [← harray]
    exact .inl rfl
  | zero =>
    have hsame : entry.type = type := by
      rw [hrank] at harray
      exact htype.trans harray
    have hname := hnamed _ _ hentry
    rw [← hname, hsame] at hentry
    cases type with
    | array => exact .inl rfl
    | _ => exact .inr ⟨entry, hentry⟩

/-! ## Where a search comes to `System.Object` -/

theorem Passes.unique {entries : List (String × CatalogEntry)} {a b c : String}
    (hb : Passes entries a b) (hc : Passes entries a c) : b = c :=
  Option.some.inj (hb.symm.trans hc)

/-- A step of a search that has not come to `System.Object`. -/
def PassesBelow (C : Catalog) (name base : String) : Prop :=
  name ≠ objectTypeName ∧ Passes C.entries name base

/-- The ways in which a search ends without `System.Object`. -/
inductive Ends (C : Catalog) (last : String) : Prop
  /-- A base that is an array type has no entry under its name. -/
  | arrayName : 0 < (splitArrayName last).2 → C.entry? last = none → C.Ends last
  /-- The search in an array type begins at a type that is not declared. -/
  | undeclared : last = arrayTypeName → C.entry? last = none → C.Ends last
  /-- The type of no value derives from nothing, unless it is declared to. -/
  | void : last = voidTypeName → nextIn? C.entries last = none → C.Ends last
  | circle : TransGen C.PassesBelow last last → C.Ends last

variable {a last : String}

theorem reaches_object_of_passesBelow (hpath : ReflTransGen C.PassesBelow a last)
    (hobject : ReflTransGen (Passes C.entries) a objectTypeName) :
    ReflTransGen (Passes C.entries) last objectTypeName := by
  induction hpath with
  | refl => exact hobject
  | tail _ hstep ih =>
    rcases ih.cases_head with hsame | ⟨base, hfirst, hrest⟩
    · exact absurd hsame hstep.1
    · rw [← hfirst.unique hstep.2]
      exact hrest

theorem passesBelow_of_not_reaches
    (hnone : ¬ ReflTransGen (Passes C.entries) a objectTypeName)
    (hpath : ReflTransGen (Passes C.entries) a last) : ReflTransGen C.PassesBelow a last := by
  induction hpath with
  | refl => exact .refl
  | tail hpath hstep ih =>
    refine ih.tail ⟨?_, hstep⟩
    rintro rfl
    exact hnone hpath

theorem not_reaches_object_of_nextIn? (hne : last ≠ objectTypeName)
    (hnext : nextIn? C.entries last = none) :
    ¬ ReflTransGen (Passes C.entries) last objectTypeName := by
  intro hobject
  rcases hobject.cases_head with hsame | ⟨base, hstep, -⟩
  · exact hne hsame
  · rw [Passes, hnext] at hstep
    cases hstep

/-- Whatever a circle leads to leads back into it. -/
theorem not_reaches_object_of_circle (hcircle : TransGen C.PassesBelow last last) :
    ¬ ReflTransGen (Passes C.entries) last objectTypeName := by
  have hback : ∀ x, ReflTransGen (Passes C.entries) last x → TransGen C.PassesBelow x last := by
    intro x hpath
    induction hpath with
    | refl => exact hcircle
    | tail _ hstep ih =>
      obtain ⟨next, hfirst, hrest⟩ := TransGen.head'_iff.mp ih
      rw [hfirst.2.unique hstep] at hrest
      rcases reflTransGen_iff_eq_or_transGen.mp hrest with hsame | hlonger
      · rw [← hsame]
        exact hcircle
      · exact hlonger
  intro hobject
  obtain ⟨next, hfirst, -⟩ := TransGen.head'_iff.mp (hback _ hobject)
  exact hfirst.1 rfl

theorem nextIn?_of_entry?_eq_none (h : C.entry? last = none) : nextIn? C.entries last = none := by
  unfold entry? at h
  rw [nextIn?, h, Option.bind_none]

theorem Ends.not_reaches_object (h : C.Ends last) :
    ¬ ReflTransGen (Passes C.entries) last objectTypeName := by
  cases h with
  | arrayName hrank hentry =>
    refine not_reaches_object_of_nextIn? ?_ (nextIn?_of_entry?_eq_none hentry)
    rintro rfl
    exact absurd hrank (by decide)
  | undeclared hname hentry =>
    exact not_reaches_object_of_nextIn? (hname ▸ by decide) (nextIn?_of_entry?_eq_none hentry)
  | void hname hnext => exact not_reaches_object_of_nextIn? (hname ▸ by decide) hnext
  | circle hcircle => exact not_reaches_object_of_circle hcircle

/-- A name that passes a search on to nothing is `System.Object`, or one of those at which a search
ends without it. -/
theorem Searchable.ends_of_nextIn? (hC : C.Searchable) (hfound : C.type? name = some type)
    (hpath : C.Derives type last) (hne : last ≠ objectTypeName)
    (hnext : nextIn? C.entries last = none) : C.Ends last := by
  cases hentry : C.entry? last with
  | none =>
    rcases hpath.cases_tail with hfirst | ⟨before, -, hstep⟩
    · rcases hC.named.memberOwner_cases hfound with harray | ⟨entry, howner⟩
      · exact .undeclared (hfirst.trans harray) hentry
      · rw [← hfirst, hentry] at howner
        cases howner
    · obtain ⟨entry, hlookup⟩ := hstep.exists_lookup
      rw [Passes, nextIn?_of_lookup hlookup] at hstep
      cases hbase : entry.base with
      | some base =>
        rw [hbase] at hstep
        obtain rfl : base = last := Option.some.inj hstep
        exact .arrayName (rank_pos_of_contains (hC.bases _ _ _ hlookup hbase) hentry) hentry
      | none =>
        -- Only `System.Object` is implied, and the search is not there.
        have himplied : impliedBase entry.type = some last := by
          rw [hbase] at hstep
          exact hstep
        exact absurd (eq_of_impliedBase himplied) hne
  | some entry =>
    have himplied : impliedBase entry.type = none := by
      have hstop := (nextIn?_of_lookup hentry).symm.trans hnext
      cases hbase : entry.base with
      | some base =>
        rw [hbase] at hstop
        cases hstop
      | none =>
        rw [hbase] at hstop
        exact hstop
    have hname := hC.named last entry hentry
    rcases type_of_impliedBase_eq_none himplied with htype | htype
    · rw [htype] at hname
      exact .void hname.symm hnext
    · rw [htype] at hname
      exact absurd hname.symm hne

theorem Searchable.exists_ends (hC : C.Searchable) (hfound : C.type? name = some type)
    (hnone : ¬ C.Derives type objectTypeName) :
    ∃ last, ReflTransGen C.PassesBelow (memberOwner type) last ∧ C.Ends last := by
  obtain ⟨last, hpath, hend⟩ := exists_end hC.unique (memberOwner type)
  refine ⟨last, passesBelow_of_not_reaches hnone hpath, ?_⟩
  have hlater : ¬ ReflTransGen (Passes C.entries) last objectTypeName :=
    fun hobject => hnone (hpath.trans hobject)
  rcases hend with hnext | hcircle
  · refine hC.ends_of_nextIn? hfound hpath ?_ hnext
    rintro rfl
    exact hlater .refl
  · obtain ⟨next, hfirst, hrest⟩ := TransGen.head'_iff.mp hcircle
    refine .circle (.head' ⟨?_, hfirst⟩ (passesBelow_of_not_reaches ?_ hrest))
    · rintro rfl
      exact hlater .refl
    · exact fun hobject => hlater (.head hfirst hobject)

theorem Searchable.derives_object_iff (hC : C.Searchable) (hfound : C.type? name = some type) :
    C.Derives type objectTypeName ↔
      ¬ ∃ last, ReflTransGen C.PassesBelow (memberOwner type) last ∧ C.Ends last := by
  constructor
  · rintro hobject ⟨last, hpath, hend⟩
    exact hend.not_reaches_object (reaches_object_of_passesBelow hpath hobject)
  · intro hnone
    by_contra hobject
    exact hnone (hC.exists_ends hfound hobject)

/-! ## Members of `System.Object` -/

/-- A lookup on the type finds every instance member that `System.Object` declares. -/
def InheritsObject (C : Catalog) (type : HostType) : Prop :=
  ∀ entry member, C.entry? objectTypeName = some entry → entry.Declares member →
    C.Finds type member

/-- **Inheritance from `System.Object`.** In a catalog that documents were loaded into, a lookup on
a known type finds an instance member exactly if the type derives from one that declares it. So the
members of `System.Object` are found on every type that derives from it. These are the types whose
search does not end before: at a base that is an array type, at `System.Array` where that is not
declared, at the type of no value, or in a circle of bases. -/
theorem object_inherited_iff (hC : C.Reached) (hfound : C.type? name = some type) :
    (∀ member, C.Finds type member ↔ ∃ ancestor entry, C.Derives type ancestor ∧
      C.entry? ancestor = some entry ∧ entry.Declares member) ∧
    (C.Derives type objectTypeName → C.InheritsObject type) ∧
    (C.Derives type objectTypeName ↔
      ¬ ∃ last, ReflTransGen C.PassesBelow (memberOwner type) last ∧ C.Ends last) := by
  have hsearch := hC.searchable
  refine ⟨fun member => finds_iff hsearch.unique, ?_, hsearch.derives_object_iff hfound⟩
  intro hobject entry member hentry hdeclared
  exact (finds_iff hsearch.unique).mpr ⟨objectTypeName, entry, hobject, hentry, hdeclared⟩

/-- A type that derives from another one does so from `System.Object`, and one that is declared as
its own base does not. -/
theorem object_inherited_iff_leaf :
    let C := after declarations? ["types = [\x7b name = \"Leaf\", base = \"Node\" \x7d,
      \x7b name = \"Node\" \x7d, \x7b name = \"Loop\", base = \"Loop\" \x7d]"]
    C.Reached ∧ C.type? "Leaf" = some (.reference "Leaf") ∧ C.InheritsObject (.reference "Leaf") ∧
      C.type? "Loop" = some (.reference "Loop") ∧
      ¬ C.Derives (.reference "Loop") objectTypeName := by
  intro C
  have hreached : C.Reached := ⟨_, _, .inr rfl⟩
  have hruns : C.type? "Leaf" = some (.reference "Leaf") ∧
      C.type? "Loop" = some (.reference "Loop") ∧ nextIn? C.entries "Leaf" = some "Node" ∧
      nextIn? C.entries "Node" = some objectTypeName ∧
      nextIn? C.entries "Loop" = some "Loop" := by
    decide +kernel
  obtain ⟨hleaf, hloop, hfirst, hsecond, hcircle⟩ := hruns
  have hderives : C.Derives (.reference "Leaf") objectTypeName :=
    .head hfirst (.single hsecond)
  have hend : C.Ends "Loop" := .circle (.single ⟨by decide, hcircle⟩)
  refine ⟨hreached, hleaf, (object_inherited_iff hreached hleaf).2.1 hderives, hloop, ?_⟩
  intro hobject
  exact (object_inherited_iff hreached hloop).2.2.mp hobject ⟨"Loop", .refl, hend⟩

/-- Without a declaration of `System.Array`, an array has no method of `System.Object`. -/
theorem object_not_inherited_array :
    let C := ["types = [\x7b name = \"System.Object\",
      methods = [\x7b name = \"ToString\", returns = \"System.String\" \x7d] \x7d]"].foldl
        (load declarations?) empty
    C.Reached ∧ C.type? "System.String[]" = some (.array .string) ∧
      ¬ C.InheritsObject (.array .string) := by
  intro C
  let method : Method :=
    { declaring := .object, name := "ToString", params := [], returns := .string, isStatic := false,
      genericArity := 0 }
  let entry : CatalogEntry := { type := .object, methods := [method] }
  have hruns : C.type? "System.String[]" = some (.array .string) ∧
      C.entry? objectTypeName = some entry ∧
      (C.method? false (.array .string) "ToString" 0).isSome = false := by
    decide +kernel
  obtain ⟨hfound, hentry, hnone⟩ := hruns
  refine ⟨⟨_, _, .inl rfl⟩, hfound, fun hinherits => ?_⟩
  have hdeclared : entry.Declares (.method "ToString" 0) :=
    ⟨method, List.mem_singleton_self method, rfl, rfl, rfl⟩
  have hmethod := hinherits entry _ hentry hdeclared
  rw [Finds, hnone] at hmethod
  cases hmethod

end Catalog

end Interop
