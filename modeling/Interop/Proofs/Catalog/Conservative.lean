import Interop.Catalog.Document
import Interop.Proofs.Analysis.Growth
import Interop.Proofs.Catalog.Closure
import Interop.Proofs.Catalog.Lineage

/-! Conservative extension. Declarations of dotted names that a catalog does not know change no
answer about what it knows: its names denote what they did, and the entries that members are looked
up in refer to each other only. So whatever could be analyzed still is, and to the same. -/

namespace Interop

namespace Catalog

variable {C D : Catalog} {decls : List TypeDecl} {type : HostType}

/-! ## Entries that nothing refers to -/

theorem ancestry_append {entries added : List (String × CatalogEntry)} {name : String}
    (hname : name ∉ added.map (·.1))
    (hbases : ∀ known ∈ entries, ∀ base, (known.2.base <|> impliedBase known.2.type) = some base →
      base ∉ added.map (·.1)) :
    ancestry (entries ++ added) name = ancestry entries name := by
  have hadded : ∀ {name}, name ∉ added.map (·.1) → added.find? (·.1 = name) = none := by
    intro name hname
    refine List.find?_eq_none.mpr fun entry hentry hsame => hname ?_
    rw [← of_decide_eq_true hsame]
    exact List.mem_map_of_mem hentry
  induction entries, name using ancestry.induct with
  | case1 entries name hnone =>
    rw [ancestry, ancestry, List.find?_append, hnone, hadded hname]
    rfl
  | case2 entries name key first hfind ih =>
    have hmem := List.mem_of_find?_eq_some hfind
    rw [ancestry, ancestry, List.find?_append, hfind]
    simp only [Option.some_or]
    split
    · rfl
    · rename_i base hbase
      rw [List.erase_append_left _ hmem]
      congr 1
      refine ih base (hbases _ hmem base hbase) fun known hknown => ?_
      exact hbases known (List.mem_of_mem_erase hknown)

/-! ## Declarations of new names -/

/-- A catalog knows a type that it gives back for the type's name. -/
def Knows (C : Catalog) (type : HostType) : Prop := C.type? type.name = some type

/-- A declaration of a dotted name that is no array name and that the catalog does not know. -/
structure Lacks (C : Catalog) (decl : TypeDecl) : Prop where
  dotted : isDotted decl.name
  plain : ¬ arraySuffix.toList <:+ decl.name.toList
  unknown : C.type? decl.name = none

theorem Lacks.plainType? {decl : TypeDecl} (h : C.Lacks decl) : C.plainType? decl.name = none := by
  have hunknown := h.unknown
  rw [type?_eq_plainType?, splitArrayName_of_plain (splitArrayName_rank h.plain)] at hunknown
  exact Option.map_eq_none_iff.mp hunknown

/-- What the catalog knows by name is not declared anew. -/
theorem not_mem_of_type? (hnew : ∀ decl ∈ decls, C.Lacks decl) {name : String}
    (hname : C.type? name = some type) : name ∉ decls.map (·.name) := by
  intro hmem
  obtain ⟨decl, hdecl, rfl⟩ := List.mem_map.mp hmem
  rw [(hnew decl hdecl).unknown] at hname
  cases hname

theorem not_mem_of_entry? (hnew : ∀ decl ∈ decls, C.Lacks decl) {name : String}
    {entry : CatalogEntry} (hentry : C.entry? name = some entry) : name ∉ decls.map (·.name) := by
  intro hmem
  obtain ⟨decl, hdecl, rfl⟩ := List.mem_map.mp hmem
  have hnone := (hnew decl hdecl).plainType?
  rw [plainType?, hentry] at hnone
  cases hnone

/-- An extension by new names has the old entries, and besides them only new ones. -/
theorem Extends.exists_added (hC : C.Unique) (h : C.Extends decls D)
    (hnew : ∀ decl ∈ decls, C.Lacks decl) :
    ∃ added : List (String × CatalogEntry), D.entries.Perm (C.entries ++ added) ∧
      ∀ name ∈ added.map (·.1), name ∈ decls.map (·.name) := by
  let isOld (entry : String × CatalogEntry) : Bool := entry.1 ∉ decls.map (·.name)
  have hD := h.unique hC
  have hold : (D.entries.filter isOld).Perm C.entries := by
    rw [List.perm_ext_iff_of_nodup ((List.Nodup.of_map _ hD).filter _) (List.Nodup.of_map _ hC)]
    rintro ⟨name, entry⟩
    rw [List.mem_filter, ← lookup_eq_some_iff_mem hD, ← lookup_eq_some_iff_mem hC]
    constructor
    · rintro ⟨hentry, hname⟩
      exact (h.kept name (of_decide_eq_true hname)).symm.trans hentry
    · intro hentry
      have hname := not_mem_of_entry? hnew hentry
      exact ⟨(h.kept name hname).trans hentry, decide_eq_true hname⟩
  refine ⟨D.entries.filter fun entry => !isOld entry, ?_, ?_⟩
  · exact (List.filter_append_perm isOld D.entries).symm.trans (hold.append_right _)
  · intro name hname
    obtain ⟨entry, hentry, rfl⟩ := List.mem_map.mp hname
    simpa [isOld] using (List.mem_filter.mp hentry).2

/-- Types that analysis comes upon without looking them up. -/
def basicTypes : List HostType :=
  tagTable.map (·.2) ++ [.object, .string, .reference arrayTypeName]

theorem builtin_basicTypes : ∀ type ∈ basicTypes, builtin.type? type.name = some type := by
  decide +kernel

/-- What the built-in catalog knows is known whatever is loaded. -/
theorem builtin_knownIn_after (read : String → Option (List TypeDecl)) (history : List String) :
    builtin.KnownIn (after read history) := by
  refine after_induction read (fun _ _ => id) ?_ history
  intro C decls D hwell hC h name type htype
  exact h.knownIn (hwell.settled.fits h) name type (hC name type htype)

section

variable (hwell : C.WellFormed) (hclosed : C.Closed) (hbuiltin : builtin.KnownIn C)
  (h : C.Extends decls D) (hnew : ∀ decl ∈ decls, C.Lacks decl)

include hclosed hbuiltin hnew in
/-- Bases of old entries are old. -/
theorem base_not_mem {known : String × CatalogEntry} (hknown : known ∈ C.entries) {base : String}
    (hbase : (known.2.base <|> impliedBase known.2.type) = some base) :
    base ∉ decls.map (·.name) := by
  have hcovers := hclosed.covers known.1 known.2 hknown
  cases hdeclared : known.2.base with
  | some declared =>
    rw [hdeclared] at hbase
    obtain rfl : declared = base := Option.some.inj hbase
    obtain ⟨type, htype⟩ := hcovers.base declared hdeclared
    exact not_mem_of_type? hnew htype
  | none =>
    have himplied : impliedBase known.2.type = some base := by
      rw [hdeclared] at hbase
      exact hbase
    unfold impliedBase at himplied
    split at himplied
    · cases himplied
    · cases himplied
      exact not_mem_of_type? hnew (hbuiltin _ _ (builtin_basicTypes .object (by decide)))

include hbuiltin hnew in
theorem memberOwner_not_mem (htype : C.Knows type) :
    memberOwner type ∉ decls.map (·.name) := by
  cases type with
  | array element =>
    have harray := builtin_basicTypes (.reference arrayTypeName) (by decide)
    exact not_mem_of_type? hnew (hbuiltin _ _ harray)
  | _ => exact not_mem_of_type? hnew htype

include hwell hclosed hbuiltin h hnew in
theorem lineage_extends (isStatic : Bool) (htype : C.Knows type) :
    D.lineage isStatic type = C.lineage isStatic type := by
  have howner := memberOwner_not_mem hbuiltin hnew htype
  rw [lineage_eq, lineage_eq]
  cases isStatic with
  | true =>
    show (D.entry? _).toList = (C.entry? _).toList
    rw [h.kept _ howner]
  | false =>
    obtain ⟨added, hperm, hadded⟩ := h.exists_added hwell.unique hnew
    have hapart : ∀ {name}, name ∉ decls.map (·.name) → name ∉ added.map (·.1) :=
      fun hname hmem => hname (hadded _ hmem)
    show ancestry D.entries _ = ancestry C.entries _
    rw [ancestry_eq_of_perm (h.unique hwell.unique) hperm]
    refine ancestry_append (hapart howner) fun known hknown base hbase => ?_
    exact hapart (base_not_mem hclosed hbuiltin hnew hknown hbase)

include hwell hclosed hbuiltin h hnew in
theorem findMember?_extends {α : Type} (isStatic : Bool) (htype : C.Knows type)
    (members : CatalogEntry → List α) (fits : α → Bool) :
    D.findMember? isStatic type members fits = C.findMember? isStatic type members fits := by
  rw [findMember?, findMember?, lineage_extends hwell hclosed hbuiltin h hnew isStatic htype]

include hclosed in
/-- Types in the signatures of members are known. -/
theorem knows_of_mem_flatMap {α : Type} {members : CatalogEntry → List α} {member : α}
    (hmember : member ∈ C.entries.flatMap (members ·.2))
    (htype : ∀ entry, member ∈ members entry → type ∈ CatalogEntry.signatureTypes entry) :
    C.Knows type := by
  obtain ⟨⟨name, entry⟩, hentry, hmember⟩ := List.mem_flatMap.mp hmember
  exact (hclosed.covers name entry hentry).signatures type (htype entry hmember)

include hclosed in
theorem knows_returns {isStatic : Bool} {owner : HostType} {name : String} {arity : Nat}
    {method : Method} (hmethod : C.method? isStatic owner name arity = some method) :
    C.Knows method.returns := by
  refine knows_of_mem_flatMap hclosed (method?_eq_some hmethod).1 fun entry hmember => ?_
  refine List.mem_append_right _ (List.mem_flatMap.mpr ⟨method, hmember, ?_⟩)
  exact List.mem_cons_self

include h hnew in
/-- Old names denote what they denoted, and new ones denoted nothing. -/
theorem type?_extends {base : String} (hbase : (splitArrayName base).2 = 0) :
    (∀ rank, D.type? (arrayName base rank) = C.type? (arrayName base rank)) ∨
      isDotted base ∧ ∀ rank, C.type? (arrayName base rank) = none := by
  simp only [type?_eq_plainType?, splitArrayName_arrayName hbase]
  by_cases hmem : base ∈ decls.map (·.name)
  · right
    obtain ⟨decl, hdecl, rfl⟩ := List.mem_map.mp hmem
    refine ⟨(hnew decl hdecl).dotted, fun rank => ?_⟩
    rw [(hnew decl hdecl).plainType?]
    rfl
  · left
    intro rank
    rw [h.types.others base hmem]

include hbuiltin in
theorem knows_literal {literal : Literal} (htype : literal.type? = some type) : C.Knows type := by
  refine hbuiltin _ _ (builtin_basicTypes type ?_)
  cases literal <;> cases htype <;> decide

include hbuiltin in
theorem knows_tag {tag : String} (htag : primitiveTag? tag = some type) : C.Knows type := by
  have hbasic : type ∈ basicTypes :=
    List.mem_append_left _ (List.mem_map_of_mem (mem_tagTable htag))
  exact hbuiltin _ _ (builtin_basicTypes type hbasic)

theorem Knows.array (htype : C.Knows type) : C.Knows (.array type) := by
  unfold Knows at htype ⊢
  rw [HostType.name, type?_append_suffix, htype, Option.map_some]

include hwell hclosed hbuiltin h hnew in
/-- The host that an extension by new names describes has grown. -/
theorem host_grows : Host.Grows C.Knows C.host D.host where
  literal := fun _ _ htype => knows_literal hbuiltin htype
  tag := fun _ _ htag => knows_tag hbuiltin htag
  array := fun _ htype => htype.array
  type := by
    intro name type htype
    unfold Knows
    rw [hclosed.name_of_type? name type htype]
    exact htype
  names := fun base hbase => type?_extends h hnew hbase
  field := fun isStatic type name htype =>
    findMember?_extends hwell hclosed hbuiltin h hnew isStatic htype _ _
  property := fun isStatic type name htype =>
    findMember?_extends hwell hclosed hbuiltin h hnew isStatic htype _ _
  nullaryMethod := fun isStatic type name htype =>
    findMember?_extends hwell hclosed hbuiltin h hnew isStatic htype _ _
  method := fun isStatic type name arity htype =>
    findMember?_extends hwell hclosed hbuiltin h hnew isStatic htype _ _
  fieldType := by
    intro isStatic owner name field hfield
    refine knows_of_mem_flatMap hclosed (field?_eq_some hfield).1 fun entry hmember => ?_
    exact List.mem_append_left _ (List.mem_append_left _ (List.mem_map_of_mem hmember))
  propertyType := by
    intro isStatic owner name property hproperty
    refine knows_of_mem_flatMap hclosed (property?_eq_some hproperty).1 fun entry hmember => ?_
    exact List.mem_append_left _ (List.mem_append_right _ (List.mem_map_of_mem hmember))
  nullaryReturns := fun isStatic owner name method hmethod => knows_returns hclosed hmethod
  methodReturns := fun isStatic owner name arity method hmethod => knows_returns hclosed hmethod

end

/-- **Conservative extension.** A catalog is extended by declarations of dotted names that are no
array names and that it does not know. Where the types that a context brings along and those that
are embedded in a form are known to the catalog, and the form can be analyzed over it, the extended
catalog gives the same expression, after the same questions and warnings. -/
theorem extend_conservative (read : String → Option (List TypeDecl)) (history : List String)
    {decls : List TypeDecl} {D : Catalog} (hload : (after read history).extend decls = .ok D)
    (hnew : ∀ decl ∈ decls, (after read history).Lacks decl) {context : Context} {form : Form}
    (hcontext : context.Brings (after read history).Knows)
    (hform : form.Embeds (after read history).Knows) {expr : Expr}
    (hexpr : (analyze (context.over (after read history).host) form).result = .ok expr) :
    (analyze (context.over D.host) form).result = .ok expr ∧
      (analyze (context.over D.host) form).log =
        (analyze (context.over (after read history).host) form).log := by
  have hgrows : Host.Grows (after read history).Knows (after read history).host D.host :=
    host_grows (wellFormed_after read history) (closed_after read history)
      (builtin_knownIn_after read history) (extends_of_extend hload) hnew
  have hsame := (analyze_survives hgrows).persists context form hcontext hform expr hexpr
  rw [hsame]
  exact ⟨hexpr, rfl⟩

/-- `(. Math Max 1 2)` before and after `Geo.Point` is declared. -/
theorem extend_conservative_max :
    let decls : List TypeDecl := [{ name := "Geo.Point", base := some "System.Math" }]
    let math : HostType := .reference "System.Math"
    let word (name : String) : Form := .leaf (.symbol { name }) {}
    let form : Form :=
      .group .paren [word ".", word "Math", word "Max", .leaf (.int 1) {}, .leaf (.int 2) {}] {}
    let context : Context :=
      { host := builtin.host, source := "max",
        names := { name := "user", mappings := [("Math", .type math)] } }
    ∃ D expr, (after declarations? []).extend decls = .ok D ∧
      (analyze (context.over (after declarations? []).host) form).result = .ok expr ∧
      (analyze (context.over D.host) form).result = .ok expr := by
  intro decls math word form context
  have hruns : ((after declarations? []).extend decls).isOk ∧
      (after declarations? []).type? "Geo.Point" = none ∧ (after declarations? []).Knows math ∧
      (analyze (context.over (after declarations? []).host) form).result.isOk := by
    unfold Knows
    decide +kernel
  obtain ⟨hextends, hunknown, hmath, hanalyzed⟩ := hruns
  obtain ⟨D, hload⟩ := except_isOk_iff.mp hextends
  obtain ⟨expr, hexpr⟩ := except_isOk_iff.mp hanalyzed
  have hnew : ∀ decl ∈ decls, (after declarations? []).Lacks decl := by
    intro decl hdecl
    obtain rfl := List.mem_singleton.mp hdecl
    exact ⟨by decide, by decide, hunknown⟩
  have hcontext : context.Brings (after declarations? []).Knows := by
    refine ⟨fun name type halias => ?_, fun symbol binding hbinding => ?_⟩
    · obtain ⟨before, later, hmappings, -⟩ := List.lookup_eq_some_iff.mp halias
      have hmem : (name, Mapping.type type) ∈ context.names.mappings := by
        rw [hmappings]
        simp
      cases List.mem_singleton.mp hmem
      exact hmath
    · unfold LexicalEnv.lookup? at hbinding
      split at hbinding <;> cases hbinding
  have hform : form.Embeds (after declarations? []).Knows := by
    refine .group fun item hitem => ?_
    simp only [List.mem_cons, List.not_mem_nil, or_false] at hitem
    rcases hitem with rfl | rfl | rfl | rfl | rfl <;> exact .leaf nofun
  exact ⟨D, expr, hload, hexpr,
    (extend_conservative declarations? [] hload hnew hcontext hform hexpr).1⟩

end Catalog

end Interop
