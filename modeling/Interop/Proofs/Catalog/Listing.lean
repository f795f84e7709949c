import Interop.Proofs.Catalog.Inheritance
import Mathlib.Data.List.Sort

/-! Listed types. A catalog lists the names of its entries. Looking one of them up gives the type of
the entry, and each member of the entry or a like one that stands before it there, exactly if the
name does not end in an array suffix: such a name is taken for that of an array. -/

namespace Interop

/-- A search finds a member of a list or one that stands before it, and that is like it. -/
def FindsOwn {α : Type} (members : List α) (member : α) (like : α → Prop) (found : Option α) :
    Prop :=
  ∃ other before after, found = some other ∧ members = before ++ other :: after ∧ like other ∧
    member ∈ other :: after

theorem findsOwn_find? {α : Type} {members : List α} {member : α} {fits : α → Bool}
    {like : α → Prop} (hlike : ∀ other, fits other ↔ like other) (hmember : member ∈ members)
    (hsame : like member) : FindsOwn members member like (members.find? fits) := by
  rw [← hlike] at hsame
  cases hfind : members.find? fits with
  | none => exact absurd hsame (List.find?_eq_none.mp hfind member hmember)
  | some other =>
    obtain ⟨hother, before, after, hsplit, hbefore⟩ := List.find?_eq_some_iff_append.mp hfind
    refine ⟨other, before, after, rfl, hsplit, (hlike other).mp hother, ?_⟩
    rw [hsplit, List.mem_append] at hmember
    refine hmember.resolve_left fun hearlier => ?_
    simpa [hsame] using hbefore member hearlier

theorem TypeDecl.type_ne_array (decl : TypeDecl) (element : HostType) :
    decl.type ≠ .array element := by
  unfold TypeDecl.type
  grind

namespace Catalog

variable {C D : Catalog} {name : String} {entry : CatalogEntry}

/-! ## Names -/

theorem insertName_eq_orderedInsert (name : String) (names : List String) :
    insertName name names = names.orderedInsert (· ≤ ·) name := by
  induction names with
  | nil => rfl
  | cons other rest ih => simp only [insertName, List.orderedInsert, ih]

theorem typeNames_eq (C : Catalog) :
    C.typeNames = (C.entries.map (·.1)).insertionSort (· ≤ ·) := by
  rw [typeNames, List.insertionSort]
  congr 1
  funext name names
  exact insertName_eq_orderedInsert name names

theorem mem_typeNames_iff : name ∈ C.typeNames ↔ (C.entry? name).isSome := by
  rw [typeNames_eq, List.mem_insertionSort, List.mem_map, entry?, List.lookup_isSome_iff]
  refine exists_congr fun known => and_congr_right fun _ => ?_
  rw [beq_iff_eq, eq_comm]

/-! ## Entries -/

/-- Where the type of an entry is from: a declaration of its name, or else the catalog without
declarations. -/
inductive Origin (C : Catalog) (name : String) (type : HostType) : Prop
  | declared (decl : TypeDecl) : name ∈ C.declared → decl.name = name → decl.type = type →
      C.Origin name type
  | intrinsic : name ∉ C.declared → type ∈ intrinsicTypes → type.name = name → C.Origin name type

theorem Origin.of_extends {decls : List TypeDecl}
    (hC : ∀ name entry, C.entry? name = some entry → C.Origin name entry.type)
    (h : C.Extends decls D) (hentry : D.entry? name = some entry) : D.Origin name entry.type := by
  by_cases hname : name ∈ decls.map (·.name)
  · obtain ⟨decl, hdecl, rfl⟩ := List.mem_map.mp hname
    obtain ⟨found, hfound, hof⟩ := h.defined decl hdecl
    obtain rfl : found = entry := Option.some.inj (hfound.symm.trans hentry)
    exact .declared decl (h.declared.mem_iff.mpr (List.mem_append_left _ hname)) rfl hof.type.symm
  · have hdeclared : name ∈ D.declared ↔ name ∈ C.declared := by
      rw [h.declared.mem_iff, List.mem_append]
      exact or_iff_right hname
    rw [h.kept name hname] at hentry
    cases hC name entry hentry with
    | declared decl hold hsame htype => exact .declared decl (hdeclared.mpr hold) hsame htype
    | intrinsic hfree htype hsame => exact .intrinsic (mt hdeclared.mp hfree) htype hsame

theorem Reached.origin (hC : C.Reached) (hentry : C.entry? name = some entry) :
    C.Origin name entry.type := by
  refine hC.induction (P := fun C => ∀ name entry, C.entry? name = some entry →
    C.Origin name entry.type) ?_ ?_ name entry hentry
  · intro name entry hentry
    obtain ⟨type, htype, hsame⟩ := List.mem_map.mp <| mem_of_entry? hentry
    cases hsame
    exact .intrinsic (List.not_mem_nil) htype rfl
  · intro C decls D hC h name entry hentry
    exact .of_extends hC h hentry

/-- No entry is that of an array type. -/
theorem Origin.ne_array {type : HostType} (h : C.Origin name type) (element : HostType) :
    type ≠ .array element := by
  have hintrinsic : ∀ type ∈ intrinsicTypes, type.element? = none := by decide
  rintro rfl
  cases h with
  | declared decl _ _ htype => exact decl.type_ne_array element htype
  | intrinsic _ htype => cases hintrinsic _ htype

/-- The search for a member of a type begins with the type's own entry. -/
theorem exists_lineage_eq_cons (hunique : C.Unique) (hnamed : C.Named)
    (hentry : C.entry? name = some entry) (hplain : ∀ element, entry.type ≠ .array element)
    (isStatic : Bool) : ∃ bases, C.lineage isStatic entry.type = entry :: bases := by
  have howner : memberOwner entry.type = name := by
    rw [memberOwner_of_ne_array hplain, hnamed name entry hentry]
  rw [lineage_eq, howner]
  cases isStatic with
  | true => exact ⟨[], by simp [hentry]⟩
  | false =>
    have hmem := (lookup_eq_some_iff_mem hunique).mp hentry
    exact ⟨_, ancestry_of_mem hunique hmem⟩

/-- A lookup on the type of an entry finds each of its members, or a like one before it. -/
theorem findsOwn_findMember? {α : Type} {isStatic : Bool} {members : CatalogEntry → List α}
    {fits : α → Bool} {like : α → Prop} {member : α} {bases : List CatalogEntry}
    (hlineage : C.lineage isStatic entry.type = entry :: bases)
    (hlike : ∀ other, fits other ↔ like other) (hmember : member ∈ members entry)
    (hsame : like member) :
    FindsOwn (members entry) member like (C.findMember? isStatic entry.type members fits) := by
  have hown := findsOwn_find? hlike hmember hsame
  obtain ⟨other, before, after, hfound, -⟩ := id hown
  rw [findMember?, hlineage, List.flatMap_cons, List.find?_append, hfound, Option.some_or]
  rwa [hfound] at hown

/-! ## What a listed name offers -/

/-- The type of an entry is found under the name, has that name, and lookups on it find the members
of the entry, or like ones that stand before them: of the same name and staticness, and for methods
with as many parameters. -/
structure Offers (C : Catalog) (name : String) (entry : CatalogEntry) : Prop where
  found : C.type? name = some entry.type
  named : entry.type.name = name
  fields : ∀ field ∈ entry.fields, FindsOwn entry.fields field
    (fun other => other.name = field.name ∧ other.isStatic = field.isStatic)
    (C.field? field.isStatic entry.type field.name)
  properties : ∀ property ∈ entry.properties, FindsOwn entry.properties property
    (fun other => other.name = property.name ∧ other.isStatic = property.isStatic)
    (C.property? property.isStatic entry.type property.name)
  methods : ∀ method ∈ entry.methods, FindsOwn entry.methods method
    (fun other => other.name = method.name ∧ other.isStatic = method.isStatic ∧
      other.arity = method.arity)
    (C.method? method.isStatic entry.type method.name method.arity)

theorem offers_of_plain (hC : C.Searchable) (hentry : C.entry? name = some entry)
    (hnotArray : ∀ element, entry.type ≠ .array element) (hplain : (splitArrayName name).2 = 0) :
    C.Offers name entry := by
  have hlineage := exists_lineage_eq_cons hC.unique hC.named hentry hnotArray
  refine ⟨?_, hC.named name entry hentry, ?_, ?_, ?_⟩
  · rw [type?, splitArrayName_of_plain hplain]
    simp only [hentry, Option.map_some, HostType.arrayOf]
  · intro field hfield
    obtain ⟨bases, hbases⟩ := hlineage field.isStatic
    exact findsOwn_findMember? hbases (by simp) hfield ⟨rfl, rfl⟩
  · intro property hproperty
    obtain ⟨bases, hbases⟩ := hlineage property.isStatic
    exact findsOwn_findMember? hbases (by simp) hproperty ⟨rfl, rfl⟩
  · intro method hmethod
    obtain ⟨bases, hbases⟩ := hlineage method.isStatic
    exact findsOwn_findMember? hbases (by simp [and_assoc]) hmethod ⟨rfl, rfl, rfl⟩

/-- **Listed types are found.** In a catalog that documents were loaded into, a listed name stands
for the type of its entry, on which all members of the entry are found, exactly if the name is no
array name. -/
theorem listed_found_iff (hC : C.Reached) (hlisted : name ∈ C.typeNames) :
    (∃ entry, C.entry? name = some entry ∧ C.Offers name entry) ↔
      ∀ element, name ≠ element ++ arraySuffix := by
  constructor
  · rintro ⟨entry, hentry, hoffers⟩ element rfl
    have hfound := hoffers.found
    rw [type?_append_suffix, Option.map_eq_some_iff] at hfound
    obtain ⟨inner, -, htype⟩ := hfound
    exact (hC.origin hentry).ne_array inner htype.symm
  · intro hplain
    obtain ⟨entry, hentry⟩ := Option.isSome_iff_exists.mp (mem_typeNames_iff.mp hlisted)
    exact ⟨entry, hentry, offers_of_plain hC.searchable hentry (hC.origin hentry).ne_array
      (splitArrayName_rank_eq_zero_iff.mpr hplain)⟩

/-- A type with two methods of one name and as many parameters, the first of which is found. -/
theorem listed_found_iff_box :
    let C := ["types = [\x7b name = \"Box\", methods = [
      \x7b name = \"Put\", params = [\"System.Int32\"] \x7d,
      \x7b name = \"Put\", params = [\"System.String\"] \x7d] \x7d]"].foldl (load declarations?) empty
    C.Reached ∧ "Box" ∈ C.typeNames ∧ ∃ entry, C.entry? "Box" = some entry ∧ C.Offers "Box" entry ∧
      entry.methods.length = 2 := by
  intro C
  have hreached : C.Reached := ⟨_, _, .inl rfl⟩
  have hruns : (C.entry? "Box").map (·.methods.length) = some 2 := by decide +kernel
  obtain ⟨known, hknown, hlength⟩ := Option.map_eq_some_iff.mp hruns
  have hlisted : "Box" ∈ C.typeNames := mem_typeNames_iff.mpr (Option.isSome_of_eq_some hknown)
  have hplain := splitArrayName_rank_eq_zero_iff.mp (show (splitArrayName "Box").2 = 0 by decide)
  obtain ⟨entry, hentry, hoffers⟩ := (listed_found_iff hreached hlisted).mpr hplain
  obtain rfl : known = entry := Option.some.inj (hknown.symm.trans hentry)
  exact ⟨hreached, hlisted, known, hentry, hoffers, hlength⟩

/-- A declared name that ends in an array suffix is listed and not found. -/
theorem listed_not_found_array :
    let C := ["types = [\x7b name = \"Box[]\" \x7d]"].foldl (load declarations?) empty
    C.Reached ∧ "Box[]" ∈ C.typeNames ∧
      ¬ ∃ entry, C.entry? "Box[]" = some entry ∧ C.Offers "Box[]" entry := by
  intro C
  have hruns : (C.entry? "Box[]").isSome ∧ C.type? "Box[]" = none := by decide +kernel
  obtain ⟨hlisted, hnone⟩ := hruns
  refine ⟨⟨_, _, .inl rfl⟩, mem_typeNames_iff.mpr hlisted, ?_⟩
  rintro ⟨entry, -, hoffers⟩
  have hfound := hoffers.found
  rw [hnone] at hfound
  cases hfound

end Catalog

end Interop
