import Interop.Proofs.Catalog.Loading
import Mathlib.Logic.Relation

/-! The search for members as a walk over bases. Each entry passes the search on to its base, the
declared or the implied one, and no entry is taken twice. Nothing that a path of bases leads to is
missed by that: the search takes exactly the entries on the path, and it ends at a name that passes
it on to nothing or in a circle. -/

namespace Interop

open Relation

/-- A path to another place has a first step, after which it need not come back. -/
theorem exists_step_avoiding {α : Type} {r : α → α → Prop} {a c : α} (h : ReflTransGen r a c)
    (hne : c ≠ a) : ∃ b, r a b ∧ ReflTransGen (fun x y => x ≠ a ∧ r x y) b c := by
  induction h with
  | refl => exact absurd rfl hne
  | @tail d c _ hstep ih =>
    by_cases hback : d = a
    · subst hback
      exact ⟨c, hstep, .refl⟩
    · obtain ⟨b, hfirst, hpath⟩ := ih hback
      exact ⟨b, hfirst, hpath.tail ⟨hback, hstep⟩⟩

namespace Catalog

variable {entries : List (String × CatalogEntry)} {name : String} {entry : CatalogEntry}

/-! ## One step -/

/-- What a search goes on with after an entry: the base that is declared, or else implied. -/
def nextIn? (entries : List (String × CatalogEntry)) (name : String) : Option String :=
  (entries.lookup name).bind fun entry => entry.base <|> impliedBase entry.type

def Passes (entries : List (String × CatalogEntry)) (name base : String) : Prop :=
  nextIn? entries name = some base

theorem nextIn?_of_lookup (h : entries.lookup name = some entry) :
    nextIn? entries name = (entry.base <|> impliedBase entry.type) := by
  rw [nextIn?, h, Option.bind_some]

theorem Passes.exists_lookup {base : String} (h : Passes entries name base) :
    ∃ entry, entries.lookup name = some entry :=
  (Option.bind_eq_some_iff.mp h).imp fun _ hentry => hentry.1

theorem eq_of_impliedBase {type : HostType} {base : String} (h : impliedBase type = some base) :
    base = objectTypeName := by
  unfold impliedBase at h
  split at h
  · cases h
  · exact (Option.some.inj h).symm

theorem type_of_impliedBase_eq_none {type : HostType} (h : impliedBase type = none) :
    type = .void ∨ type = .object := by
  unfold impliedBase at h
  split at h
  · assumption
  · cases h

/-! ## Entries that are left -/

theorem nodup_keys_erase (h : (entries.map (·.1)).Nodup) (known : String × CatalogEntry) :
    ((entries.erase known).map (·.1)).Nodup :=
  h.sublist (List.erase_sublist.map _)

theorem lookup_erase_self (h : (entries.map (·.1)).Nodup) (hentry : (name, entry) ∈ entries) :
    (entries.erase (name, entry)).lookup name = none := by
  refine Option.eq_none_iff_forall_ne_some.mpr fun other hother => ?_
  have hmem := (lookup_eq_some_iff_mem (nodup_keys_erase h _)).mp hother
  have hlookup := (lookup_eq_some_iff_mem h).mpr (List.mem_of_mem_erase hmem)
  rw [(lookup_eq_some_iff_mem h).mpr hentry] at hlookup
  cases Option.some.inj hlookup
  exact (List.Nodup.of_map _ h).not_mem_erase hmem

theorem lookup_erase_of_ne (h : (entries.map (·.1)).Nodup) {asked : String} (hne : asked ≠ name) :
    (entries.erase (name, entry)).lookup asked = entries.lookup asked := by
  refine Option.ext fun found => ?_
  rw [lookup_eq_some_iff_mem (nodup_keys_erase h _), lookup_eq_some_iff_mem h]
  exact List.mem_erase_of_ne fun heq => hne (congrArg Prod.fst heq)

theorem nextIn?_erase_of_ne (h : (entries.map (·.1)).Nodup) {asked : String} (hne : asked ≠ name) :
    nextIn? (entries.erase (name, entry)) asked = nextIn? entries asked := by
  rw [nextIn?, nextIn?, lookup_erase_of_ne h hne]

/-- The first entry of an ancestry, and how the search goes on after it. -/
theorem ancestry_of_mem (h : (entries.map (·.1)).Nodup) (hentry : (name, entry) ∈ entries) :
    ancestry entries name = entry :: match nextIn? entries name with
      | none => []
      | some base => ancestry (entries.erase (name, entry)) base := by
  have hlookup := (lookup_eq_some_iff_mem h).mpr hentry
  have hfind : entries.find? (·.1 = name) = some (name, entry) := by
    rw [find?_eq_map_lookup, hlookup, Option.map_some]
  rewrite [ancestry, hfind, nextIn?_of_lookup hlookup]
  rfl

theorem ancestry_of_lookup_eq_none (h : entries.lookup name = none) :
    ancestry entries name = [] := by
  have hfind : entries.find? (·.1 = name) = none := by
    rw [find?_eq_map_lookup, h, Option.map_none]
  rw [ancestry, hfind]

/-- A step that is possible without an entry is possible with it. -/
theorem Passes.of_erase (h : (entries.map (·.1)).Nodup) (hentry : (name, entry) ∈ entries)
    {a b : String} (hstep : Passes (entries.erase (name, entry)) a b) : Passes entries a b := by
  have hne : a ≠ name := by
    rintro rfl
    obtain ⟨found, hfound⟩ := hstep.exists_lookup
    rw [lookup_erase_self h hentry] at hfound
    cases hfound
  rw [Passes, ← nextIn?_erase_of_ne h hne]
  exact hstep

theorem Passes.erase (h : (entries.map (·.1)).Nodup) {a b : String} (hne : a ≠ name)
    (hstep : Passes entries a b) : Passes (entries.erase (name, entry)) a b := by
  rw [Passes, nextIn?_erase_of_ne h hne]
  exact hstep

/-! ## The whole search -/

/-- A property of names in front of entries holds if it holds of unknown names, and of a known one
when it holds, without the entry of that name, of what the search goes on with. -/
theorem search_induction {P : List (String × CatalogEntry) → String → Prop}
    (hunknown : ∀ entries name, entries.lookup name = none → P entries name)
    (hknown : ∀ entries name entry, (entries.map (·.1)).Nodup → (name, entry) ∈ entries →
      (∀ base, Passes entries name base → P (entries.erase (name, entry)) base) → P entries name)
    (h : (entries.map (·.1)).Nodup) (name : String) : P entries name := by
  induction entries, name using ancestry.induct with
  | case1 entries name hnone =>
    rw [find?_eq_map_lookup, Option.map_eq_none_iff] at hnone
    exact hunknown entries name hnone
  | case2 entries name key first hfind ih =>
    rw [find?_eq_map_lookup, Option.map_eq_some_iff] at hfind
    obtain ⟨entry, hlookup, hfirst⟩ := hfind
    cases hfirst
    refine hknown entries _ _ h ((lookup_eq_some_iff_mem h).mp hlookup) fun base _ => ?_
    exact ih base (nodup_keys_erase h _)

/-- The entries that a search takes are those that a path of bases leads to. -/
theorem mem_ancestry_iff (h : (entries.map (·.1)).Nodup) :
    entry ∈ ancestry entries name ↔
      ∃ ancestor, ReflTransGen (Passes entries) name ancestor ∧
        entries.lookup ancestor = some entry := by
  refine search_induction (P := fun entries name => entry ∈ ancestry entries name ↔
    ∃ ancestor, ReflTransGen (Passes entries) name ancestor ∧
      entries.lookup ancestor = some entry) ?_ ?_ h name
  · intro entries name hnone
    rw [ancestry_of_lookup_eq_none hnone]
    refine ⟨nofun, ?_⟩
    rintro ⟨ancestor, hpath, hentry⟩
    rcases hpath.cases_head with rfl | ⟨base, hstep, -⟩
    · rw [hnone] at hentry
      cases hentry
    · obtain ⟨found, hfound⟩ := hstep.exists_lookup
      rw [hnone] at hfound
      cases hfound
  · intro entries name first h hfirst ih
    rw [ancestry_of_mem h hfirst, List.mem_cons]
    constructor
    · rintro (rfl | hmem)
      · exact ⟨name, .refl, (lookup_eq_some_iff_mem h).mpr hfirst⟩
      · cases hnext : nextIn? entries name with
        | none =>
          rw [hnext] at hmem
          cases hmem
        | some base =>
          rw [hnext] at hmem
          obtain ⟨ancestor, hpath, hentry⟩ := (ih base hnext).mp hmem
          rw [lookup_eq_some_iff_mem (nodup_keys_erase h _)] at hentry
          refine ⟨ancestor, ?_, (lookup_eq_some_iff_mem h).mpr (List.mem_of_mem_erase hentry)⟩
          exact .head hnext (ReflTransGen.mono (fun _ _ => Passes.of_erase h hfirst) _ _ hpath)
    · rintro ⟨ancestor, hpath, hentry⟩
      by_cases hsame : ancestor = name
      · subst hsame
        rw [(lookup_eq_some_iff_mem h).mpr hfirst] at hentry
        exact .inl (Option.some.inj hentry).symm
      · right
        obtain ⟨base, hstep, hrest⟩ := exists_step_avoiding hpath hsame
        have hnext : nextIn? entries name = some base := hstep
        rw [hnext]
        refine (ih base hstep).mpr ⟨ancestor, ?_, ?_⟩
        · exact ReflTransGen.mono (fun _ _ hpassed => hpassed.2.erase h hpassed.1) _ _ hrest
        · rw [lookup_erase_of_ne h hsame, hentry]

/-- A search comes to an end at a name that passes it on to nothing, or in a circle. -/
theorem exists_end (h : (entries.map (·.1)).Nodup) (name : String) :
    ∃ last, ReflTransGen (Passes entries) name last ∧
      (nextIn? entries last = none ∨ TransGen (Passes entries) last last) := by
  refine search_induction (P := fun entries name => ∃ last,
    ReflTransGen (Passes entries) name last ∧
      (nextIn? entries last = none ∨ TransGen (Passes entries) last last)) ?_ ?_ h name
  · intro entries name hnone
    exact ⟨name, .refl, .inl (by rw [nextIn?, hnone, Option.bind_none])⟩
  · intro entries name first h hfirst ih
    cases hnext : nextIn? entries name with
    | none => exact ⟨name, .refl, .inl hnext⟩
    | some base =>
      obtain ⟨last, hrest, hend⟩ := ih base hnext
      have hpath : ReflTransGen (Passes entries) base last :=
        ReflTransGen.mono (fun _ _ => Passes.of_erase h hfirst) _ _ hrest
      rcases hend with hlast | hcircle
      · -- Nothing comes after the last name, or it is the one that was left out.
        by_cases hsame : last = name
        · subst hsame
          exact ⟨last, .refl, .inr (.head' hnext hpath)⟩
        · rw [nextIn?_erase_of_ne h hsame] at hlast
          exact ⟨last, .head hnext hpath, .inl hlast⟩
      · have hcircle : TransGen (Passes entries) last last :=
          TransGen.mono (fun _ _ => Passes.of_erase h hfirst) _ _ hcircle
        exact ⟨last, .head hnext hpath, .inr hcircle⟩

/-! ## Members of a type -/

/-- The name whose entry a type's members are looked up from. -/
def memberOwner : HostType → String
  | .array _ => arrayTypeName
  | type => type.name

theorem lineage_eq (catalog : Catalog) (isStatic : Bool) (type : HostType) :
    catalog.lineage isStatic type =
      if isStatic then (catalog.entry? (memberOwner type)).toList
      else ancestry catalog.entries (memberOwner type) := by
  cases type <;> rfl

variable {C : Catalog} {type : HostType}

theorem memberOwner_of_ne_array (hplain : ∀ element, type ≠ .array element) :
    memberOwner type = type.name := by
  cases type with
  | array element => exact absurd rfl (hplain element)
  | _ => rfl

/-- A type derives from what its search for instance members comes to, its own name included. The
search in an array type begins at `System.Array`. -/
def Derives (C : Catalog) (type : HostType) (ancestor : String) : Prop :=
  ReflTransGen (Passes C.entries) (memberOwner type) ancestor

/-- An instance member is found exactly if a type that is derived from declares one that fits. -/
theorem findMember?_isSome_iff {α : Type} (hC : C.Unique) {members : CatalogEntry → List α}
    {fits : α → Bool} :
    (C.findMember? false type members fits).isSome ↔
      ∃ ancestor entry, C.Derives type ancestor ∧ C.entry? ancestor = some entry ∧
        ∃ member ∈ members entry, fits member := by
  have hlineage : C.lineage false type = ancestry C.entries (memberOwner type) := by
    rw [lineage_eq]
    rfl
  rw [findMember?, List.find?_isSome, hlineage]
  constructor
  · rintro ⟨member, hmember, hfits⟩
    obtain ⟨entry, hentry, hdeclared⟩ := List.mem_flatMap.mp hmember
    obtain ⟨ancestor, hpath, hlookup⟩ := (mem_ancestry_iff hC).mp hentry
    exact ⟨ancestor, entry, hpath, hlookup, member, hdeclared, hfits⟩
  · rintro ⟨ancestor, entry, hpath, hlookup, member, hdeclared, hfits⟩
    have hentry := (mem_ancestry_iff hC).mpr ⟨ancestor, hpath, hlookup⟩
    exact ⟨member, List.mem_flatMap.mpr ⟨entry, hentry, hdeclared⟩, hfits⟩

end Catalog

end Interop
