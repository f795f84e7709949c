import Interop.Proofs.Catalog.Listing

/-! The search for members, step by step. From each entry that it takes a search goes on with the
base, until there is none, it is unknown or it was seen before; so it comes to an end in every
catalog, circles of bases included, and takes no entry twice. What it finds for a type is the type's
own member, or else what it finds for the base. -/

namespace Interop

namespace CatalogEntry

/-- The first field of the entry itself that is asked for. -/
def field? (entry : CatalogEntry) (isStatic : Bool) (name : String) : Option Field :=
  entry.fields.find? fun field => field.name = name && field.isStatic = isStatic

def property? (entry : CatalogEntry) (isStatic : Bool) (name : String) : Option Property :=
  entry.properties.find? fun property => property.name = name && property.isStatic = isStatic

def method? (entry : CatalogEntry) (isStatic : Bool) (name : String) (arity : Nat) :
    Option Method :=
  entry.methods.find? fun method =>
    method.name = name && method.isStatic = isStatic && method.arity = arity

/-- The base that the entry of a name takes over members from: the declared one, unless that is an
array name, and without any `System.Object`, save for that type itself and the type of no value. -/
inductive HasBase (entry : CatalogEntry) (name : String) : String → Prop
  | declared {base : String} : entry.base = some base → (∀ element, base ≠ element ++ arraySuffix) →
      entry.HasBase name base
  | implied : entry.base = none → name ≠ objectTypeName → name ≠ voidTypeName →
      entry.HasBase name objectTypeName

end CatalogEntry

namespace Catalog

variable {C : Catalog} {entries : List (String × CatalogEntry)} {name base : String}
  {entry : CatalogEntry} {isStatic : Bool} {type baseType : HostType}

/-! ## The steps of a search -/

/-- A search that was at the names `seen` and goes on with another one, if there is one, takes these
entries. A static search ends with the first. -/
inductive Searches (C : Catalog) (isStatic : Bool) :
    (seen : List String) → Option String → List CatalogEntry → Prop
  | nowhere {seen : List String} : C.Searches isStatic seen none []
  | again {seen : List String} {name : String} : name ∈ seen →
      C.Searches isStatic seen (some name) []
  | unknown {seen : List String} {name : String} : name ∉ seen → C.entry? name = none →
      C.Searches isStatic seen (some name) []
  | take {seen : List String} {name : String} {entry : CatalogEntry} {chain : List CatalogEntry} :
      name ∉ seen → C.entry? name = some entry →
      C.Searches isStatic (name :: seen)
        (if isStatic then none else entry.base <|> impliedBase entry.type) chain →
      C.Searches isStatic seen (some name) (entry :: chain)

theorem Searches.unique {seen : List String} {next : Option String}
    {chain chain' : List CatalogEntry} (h : C.Searches isStatic seen next chain)
    (h' : C.Searches isStatic seen next chain') : chain = chain' := by
  induction h generalizing chain' with
  | nowhere => cases h'; rfl
  | again hseen =>
    cases h' with
    | again => rfl
    | unknown => rfl
    | take hnew => exact absurd hseen hnew
  | unknown hnew hnone =>
    cases h' with
    | again => rfl
    | unknown => rfl
    | take _ hentry =>
      rw [hnone] at hentry
      cases hentry
  | take hnew hentry _ ih =>
    cases h' with
    | again hseen => exact absurd hseen hnew
    | unknown _ hnone =>
      rw [hentry] at hnone
      cases hnone
    | take _ hentry' hrest =>
      cases Option.some.inj (hentry.symm.trans hentry')
      rw [ih hrest]

/-- A search takes only entries of names that it has not seen, and each of them once. -/
theorem Searches.nodup {seen : List String} {next : Option String} {chain : List CatalogEntry}
    (hnamed : C.Named) (h : C.Searches isStatic seen next chain) :
    (∀ entry ∈ chain, entry.type.name ∉ seen) ∧ (chain.map (·.type.name)).Nodup := by
  induction h with
  | nowhere => exact ⟨nofun, .nil⟩
  | again => exact ⟨nofun, .nil⟩
  | unknown => exact ⟨nofun, .nil⟩
  | take hnew hentry _ ih =>
    obtain ⟨hfresh, hnodup⟩ := ih
    have hname := hnamed _ _ hentry
    constructor
    · intro other hother
      rcases List.mem_cons.mp hother with rfl | hother
      · rwa [hname]
      · exact fun hseen => hfresh other hother (List.mem_cons_of_mem _ hseen)
    · rw [List.map_cons, List.nodup_cons, hname]
      refine ⟨fun hmem => ?_, hnodup⟩
      obtain ⟨other, hother, hsame⟩ := List.mem_map.mp hmem
      exact hfresh other hother (hsame ▸ List.mem_cons_self)

/-- What is left of the entries of a catalog without those of the names that were seen. -/
structure Left (C : Catalog) (seen : List String) (entries : List (String × CatalogEntry)) :
    Prop where
  others : ∀ asked, asked ∉ seen → entries.lookup asked = C.entry? asked
  gone : ∀ asked ∈ seen, entries.lookup asked = none

theorem Left.erase {seen : List String} (h : C.Left seen entries)
    (hnodup : (entries.map (·.1)).Nodup) (hentry : (name, entry) ∈ entries) :
    C.Left (name :: seen) (entries.erase (name, entry)) where
  others := by
    intro asked hasked
    rw [List.mem_cons, not_or] at hasked
    rw [lookup_erase_of_ne hnodup hasked.1, h.others asked hasked.2]
  gone := by
    intro asked hasked
    by_cases hsame : asked = name
    · rw [hsame, lookup_erase_self hnodup hentry]
    · rw [lookup_erase_of_ne hnodup hsame]
      exact h.gone asked ((List.mem_cons.mp hasked).resolve_left hsame)

/-- To leave out the entries of the names that were seen comes to the same as to stop at them. -/
theorem searches_ancestry (hnodup : (entries.map (·.1)).Nodup) (name : String) {seen : List String}
    (hleft : C.Left seen entries) : C.Searches false seen (some name) (ancestry entries name) := by
  revert seen
  refine search_induction (P := fun entries name => ∀ {seen}, C.Left seen entries →
    C.Searches false seen (some name) (ancestry entries name)) ?_ ?_ hnodup name
  · intro entries name hnone seen hleft
    rw [ancestry_of_lookup_eq_none hnone]
    by_cases hseen : name ∈ seen
    · exact .again hseen
    · exact .unknown hseen ((hleft.others name hseen).symm.trans hnone)
  · intro entries name entry hnodup hentry ih seen hleft
    have hlookup := (lookup_eq_some_iff_mem hnodup).mpr hentry
    have hnew : name ∉ seen := by
      intro hseen
      rw [hleft.gone name hseen] at hlookup
      cases hlookup
    rw [ancestry_of_mem hnodup hentry, nextIn?_of_lookup hlookup]
    refine .take hnew ((hleft.others name hnew).symm.trans hlookup) ?_
    show C.Searches false (name :: seen) (entry.base <|> impliedBase entry.type) _
    cases hnext : (entry.base <|> impliedBase entry.type) with
    | none => exact .nowhere
    | some base =>
      exact ih base ((nextIn?_of_lookup hlookup).trans hnext) (hleft.erase hnodup hentry)

/-- The entries that are searched for a member are those that the search takes. -/
theorem searches_iff (hC : C.Unique) {chain : List CatalogEntry} :
    C.Searches isStatic [] (some (memberOwner type)) chain ↔ chain = C.lineage isStatic type := by
  have hlineage : C.Searches isStatic [] (some (memberOwner type)) (C.lineage isStatic type) := by
    rw [lineage_eq]
    cases isStatic with
    | false => exact searches_ancestry hC _ ⟨fun _ _ => rfl, nofun⟩
    | true =>
      cases hentry : C.entry? (memberOwner type) with
      | none => exact .unknown List.not_mem_nil hentry
      | some entry => exact .take List.not_mem_nil hentry .nowhere
  constructor
  · intro h
    exact h.unique hlineage
  · rintro rfl
    exact hlineage

/-! ## Searches from a type and from its base -/

/-- A search in which an entry is left out stops no later. -/
theorem ancestry_erase_isPrefix (hnodup : (entries.map (·.1)).Nodup) (name : String)
    {known : String × CatalogEntry} (hknown : known ∈ entries) :
    ancestry (entries.erase known) name <+: ancestry entries name := by
  revert known
  refine search_induction (P := fun entries name => ∀ {known}, known ∈ entries →
    ancestry (entries.erase known) name <+: ancestry entries name) ?_ ?_ hnodup name
  · intro entries name hnone known _
    have hgone : (entries.erase known).lookup name = none := by
      rw [List.lookup_eq_none_iff] at hnone ⊢
      exact fun other hother => hnone other (List.mem_of_mem_erase hother)
    rw [ancestry_of_lookup_eq_none hgone]
    exact List.nil_prefix
  · intro entries name entry hnodup hentry ih known hknown
    by_cases hsame : known = (name, entry)
    · subst hsame
      rw [ancestry_of_lookup_eq_none (lookup_erase_self hnodup hentry)]
      exact List.nil_prefix
    · have hne : name ≠ known.1 := by
        rintro rfl
        exact hsame (List.inj_on_of_nodup_map hnodup hknown hentry rfl)
      have hleft : (name, entry) ∈ entries.erase known :=
        (List.mem_erase_of_ne (Ne.symm hsame)).mpr hentry
      rw [ancestry_of_mem (nodup_keys_erase hnodup known) hleft, ancestry_of_mem hnodup hentry,
        nextIn?_erase_of_ne hnodup hne, List.cons_prefix_cons]
      refine ⟨rfl, ?_⟩
      cases hnext : nextIn? entries name with
      | none => exact List.nil_prefix
      | some base =>
        rw [List.erase_comm]
        exact ih base hnext ((List.mem_erase_of_ne hsame).mpr hknown)

/-- Besides the entry of a type, a search from the base of the type takes what the search from the
type takes after it. -/
theorem mem_ancestry_erase (hnodup : (entries.map (·.1)).Nodup) (hentry : (name, entry) ∈ entries)
    (hstep : Passes entries name base) {other : CatalogEntry}
    (hother : other ∈ ancestry entries base) :
    other = entry ∨ other ∈ ancestry (entries.erase (name, entry)) base := by
  obtain ⟨ancestor, hpath, hlookup⟩ := (mem_ancestry_iff hnodup).mp hother
  have hbelow : other ∈ ancestry entries name :=
    (mem_ancestry_iff hnodup).mpr ⟨ancestor, .head hstep hpath, hlookup⟩
  have hnext : nextIn? entries name = some base := hstep
  rw [ancestry_of_mem hnodup hentry, hnext] at hbelow
  exact List.mem_cons.mp hbelow

section

variable {α : Type} {members : CatalogEntry → List α} {fits : α → Bool}

/-- Going on after a prefix finds nothing more, if it comes only to what was in the prefix and to an
entry without a member that fits. -/
theorem find?_flatMap_of_isPrefix {first all : List CatalogEntry} (hbegins : first <+: all)
    (hall : ∀ other ∈ all, other = entry ∨ other ∈ first)
    (hentry : (members entry).find? fits = none) :
    (all.flatMap members).find? fits = (first.flatMap members).find? fits := by
  obtain ⟨rest, rfl⟩ := hbegins
  rw [List.flatMap_append, List.find?_append]
  cases hfirst : (first.flatMap members).find? fits with
  | some member => rfl
  | none =>
    rw [Option.none_or, List.find?_eq_none]
    intro member hmember
    obtain ⟨other, hother, hmember⟩ := List.mem_flatMap.mp hmember
    rcases hall other (List.mem_append_right _ hother) with rfl | hearlier
    · exact List.find?_eq_none.mp hentry member hmember
    · exact List.find?_eq_none.mp hfirst member (List.mem_flatMap.mpr ⟨other, hearlier, hmember⟩)

/-- A search from a type finds the type's own member, or else what a search from its base finds. -/
theorem findMember?_of_passes (hC : C.Unique) (hentry : C.entry? name = some entry)
    (howner : memberOwner type = name) (hbase : memberOwner baseType = base)
    (hstep : Passes C.entries name base) :
    C.findMember? false type members fits =
      ((members entry).find? fits).or (C.findMember? false baseType members fits) := by
  have hmem := mem_of_entry? hentry
  have hnext : nextIn? C.entries name = some base := hstep
  have htype : C.lineage false type = entry :: ancestry (C.entries.erase (name, entry)) base := by
    rw [lineage_eq, howner, if_neg Bool.false_ne_true, ancestry_of_mem hC hmem, hnext]
  have hbaseType : C.lineage false baseType = ancestry C.entries base := by
    rw [lineage_eq, hbase, if_neg Bool.false_ne_true]
  rw [findMember?, findMember?, htype, hbaseType, List.flatMap_cons, List.find?_append]
  cases hown : (members entry).find? fits with
  | some member => rfl
  | none =>
    rw [Option.none_or, Option.none_or]
    exact (find?_flatMap_of_isPrefix (ancestry_erase_isPrefix hC base hmem)
      (fun other hother => mem_ancestry_erase hC hmem hstep hother) hown).symm

theorem findMember?_static (hentry : C.entry? name = some entry)
    (howner : memberOwner type = name) :
    C.findMember? true type members fits = (members entry).find? fits := by
  rw [findMember?, lineage_eq, howner, if_pos rfl, hentry]
  simp

end

/-! ## Reached catalogs -/

/-- Members of the type of an entry are looked up from that entry. -/
theorem Reached.memberOwner_eq (hC : C.Reached) (hentry : C.entry? name = some entry) :
    memberOwner entry.type = name := by
  rw [memberOwner_of_ne_array (hC.origin hentry).ne_array]
  exact hC.searchable.named name entry hentry

theorem Reached.contains_object (hC : C.Reached) : C.contains objectTypeName :=
  hC.induction (by decide) fun _ _ _ hC h => h.contains hC

/-- Without an array suffix, a known name is that of an entry. -/
theorem exists_entry?_of_contains (hname : C.contains name)
    (hplain : ∀ element, name ≠ element ++ arraySuffix) :
    ∃ entry, C.entry? name = some entry ∧ C.type? name = some entry.type := by
  obtain ⟨type, htype⟩ := Option.isSome_iff_exists.mp hname
  have hrank := splitArrayName_rank_eq_zero_iff.mpr hplain
  have hfound := htype
  rw [type?, splitArrayName_of_plain hrank] at hfound
  obtain ⟨entry, hentry, rfl⟩ := Option.map_eq_some_iff.mp hfound
  exact ⟨entry, hentry, htype⟩

theorem Reached.passes_of_hasBase (hC : C.Reached) (hentry : C.entry? name = some entry)
    (h : entry.HasBase name base) : Passes C.entries name base := by
  have hnext : nextIn? C.entries name = (entry.base <|> impliedBase entry.type) :=
    nextIn?_of_lookup hentry
  rw [Passes, hnext]
  cases h with
  | declared hbase _ =>
    rw [hbase]
    rfl
  | implied hbase hobject hvoid =>
    have hname := hC.searchable.named name entry hentry
    have hother : ¬ (entry.type = .void ∨ entry.type = .object) := by
      rintro (htype | htype)
      · rw [htype] at hname
        exact hvoid hname.symm
      · rw [htype] at hname
        exact hobject hname.symm
    rw [hbase, impliedBase, if_neg hother]
    rfl

theorem Reached.exists_base (hC : C.Reached) (hentry : C.entry? name = some entry)
    (h : entry.HasBase name base) :
    ∃ baseEntry, C.entry? base = some baseEntry ∧ C.type? base = some baseEntry.type := by
  cases h with
  | declared hbase hplain =>
    exact exists_entry?_of_contains (hC.searchable.bases name entry base hentry hbase) hplain
  | implied =>
    have hrank : (splitArrayName objectTypeName).2 = 0 := by decide
    exact exists_entry?_of_contains hC.contains_object (splitArrayName_rank_eq_zero_iff.mp hrank)

/-- Lookups of instance members on the type of an entry find the entry's own, or else exactly what
they find on another type. -/
structure Inherits (C : Catalog) (entry : CatalogEntry) (baseType : HostType) : Prop where
  field : ∀ name, C.field? false entry.type name =
    (entry.field? false name).or (C.field? false baseType name)
  property : ∀ name, C.property? false entry.type name =
    (entry.property? false name).or (C.property? false baseType name)
  method : ∀ name arity, C.method? false entry.type name arity =
    (entry.method? false name arity).or (C.method? false baseType name arity)

/-- Lookups of static members on the type of an entry find the entry's own. -/
structure KeepsStatics (C : Catalog) (entry : CatalogEntry) : Prop where
  field : ∀ name, C.field? true entry.type name = entry.field? true name
  property : ∀ name, C.property? true entry.type name = entry.property? true name
  method : ∀ name arity, C.method? true entry.type name arity = entry.method? true name arity

/-- **Inheritance.** In a catalog that documents were loaded into, whatever circles the bases form,
the search for members ends for every type, in one way, with each entry taken once. A lookup of an
instance member on a type finds the first that the type itself declares, or else exactly what it
finds on the base; a lookup of a static member finds what the type itself declares. -/
theorem inherited_or_own (hC : C.Reached) :
    (∀ isStatic type, (∀ chain, C.Searches isStatic [] (some (memberOwner type)) chain ↔
        chain = C.lineage isStatic type) ∧ (C.lineage isStatic type).Nodup) ∧
      ∀ name entry, C.entry? name = some entry → C.KeepsStatics entry ∧
        ∀ base, entry.HasBase name base →
          ∃ baseType, C.type? base = some baseType ∧ C.Inherits entry baseType := by
  have hunique := hC.searchable.unique
  constructor
  · intro isStatic type
    have hsearch : C.Searches isStatic [] (some (memberOwner type)) (C.lineage isStatic type) :=
      (searches_iff hunique).mpr rfl
    exact ⟨fun chain => searches_iff hunique, .of_map _ (hsearch.nodup hC.searchable.named).2⟩
  · intro name entry hentry
    have howner := hC.memberOwner_eq hentry
    refine ⟨?_, fun base hbase => ?_⟩
    · exact ⟨fun _ => findMember?_static hentry howner, fun _ => findMember?_static hentry howner,
        fun _ _ => findMember?_static hentry howner⟩
    · have hstep := hC.passes_of_hasBase hentry hbase
      obtain ⟨baseEntry, hbaseEntry, htype⟩ := hC.exists_base hentry hbase
      have hbaseOwner := hC.memberOwner_eq hbaseEntry
      exact ⟨baseEntry.type, htype,
        fun _ => findMember?_of_passes hunique hentry howner hbaseOwner hstep,
        fun _ => findMember?_of_passes hunique hentry howner hbaseOwner hstep,
        fun _ _ => findMember?_of_passes hunique hentry howner hbaseOwner hstep⟩

/-- Two types, each declared as the base of the other. -/
theorem inherited_or_own_circle :
    let C := ["types = [\x7b name = \"A\", base = \"B\", methods = [\x7b name = \"F\" \x7d] \x7d,
      \x7b name = \"B\", base = \"A\", methods = [\x7b name = \"G\" \x7d] \x7d]"].foldl
        (load declarations?) empty
    C.Reached ∧ ∃ a b, C.entry? "A" = some a ∧ C.entry? "B" = some b ∧ a.HasBase "A" "B" ∧
      b.HasBase "B" "A" ∧ C.KeepsStatics a ∧ C.Inherits a b.type ∧
      (C.method? false a.type "G" 0).isSome ∧ (C.lineage false a.type).Nodup := by
  intro C
  have hreached : C.Reached := ⟨_, _, .inl rfl⟩
  have hruns : (C.entry? "A").map (·.base) = some (some "B") ∧
      (C.entry? "B").map (·.base) = some (some "A") ∧
      C.type? "B" = (C.entry? "B").map (·.type) ∧
      ((C.entry? "A").bind fun a => C.method? false a.type "G" 0).isSome := by
    decide +kernel
  obtain ⟨hbaseA, hbaseB, htype, hmethod⟩ := hruns
  obtain ⟨a, ha, hab⟩ := Option.map_eq_some_iff.mp hbaseA
  obtain ⟨b, hb, hba⟩ := Option.map_eq_some_iff.mp hbaseB
  have hasBase : a.HasBase "A" "B" :=
    .declared hab (splitArrayName_rank_eq_zero_iff.mp (by decide))
  have hcircle : b.HasBase "B" "A" :=
    .declared hba (splitArrayName_rank_eq_zero_iff.mp (by decide))
  obtain ⟨hends, hlookups⟩ := inherited_or_own hreached
  obtain ⟨hstatics, hbases⟩ := hlookups "A" a ha
  obtain ⟨baseType, hbaseType, hinherits⟩ := hbases "B" hasBase
  rw [htype, hb, Option.map_some] at hbaseType
  cases hbaseType
  rw [ha, Option.bind_some] at hmethod
  exact ⟨hreached, a, b, ha, hb, hasBase, hcircle, hstatics, hinherits, hmethod,
    (hends false a.type).2⟩

end Catalog

end Interop
