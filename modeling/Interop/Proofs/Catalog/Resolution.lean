import Interop.Proofs.Except
import Interop.Proofs.Catalog.Entry

/-! Names of types and the references of declarations. Resolving a declaration asks a catalog for
types by name and for nothing else: a catalog that knows more types the same way gives the same
entry. -/

namespace Interop

/-- A declaration is of the type that it names, whatever its kind. -/
theorem TypeDecl.name_type (decl : TypeDecl) : decl.type.name = decl.name := by
  rw [TypeDecl.type]
  split
  next kind hkind =>
    have htypeName := List.find?_some hkind
    simpa [HostType.name] using htypeName
  next =>
    by_cases hvoid : decl.name = voidTypeName
    · rw [if_pos hvoid, hvoid]
      rfl
    · rw [if_neg hvoid]
      cases decl.kind <;> rfl

/-- Array suffixes that are taken off a name come back as those of the array types. -/
theorem name_arrayOf_go {type : HostType} {text : List Char}
    (h : type.name = String.ofList (splitArrayName.go text).1.reverse) :
    (type.arrayOf (splitArrayName.go text).2).name = String.ofList text.reverse := by
  induction text using splitArrayName.go.induct with
  | case1 rest _ _ _ ih =>
    rw [splitArrayName.go] at h
    have hrest := ih h
    rw [splitArrayName.go]
    simp only [HostType.arrayOf, HostType.name, hrest, List.reverse_cons, String.ofList_append]
    rw [String.append_assoc]
    rfl
  | case2 text hsuffix =>
    rw [splitArrayName.go] at h
    · rw [splitArrayName.go]
      · exact h
      · exact hsuffix
    · exact hsuffix

namespace Catalog

variable {C D : Catalog} {decl : TypeDecl} {entry : CatalogEntry} {name : String}
  {type : HostType}

/-! ## Types by name -/

/-- Each entry is filed under the name of its type. -/
def Named (C : Catalog) : Prop := ∀ name entry, C.entry? name = some entry → entry.type.name = name

/-- The type under a name, array names apart. -/
def plainType? (C : Catalog) (name : String) : Option HostType := (C.entry? name).map (·.type)

theorem type?_eq_plainType? :
    C.type? name =
      (C.plainType? (splitArrayName name).1).map (·.arrayOf (splitArrayName name).2) := by
  rw [type?, plainType?, Option.map_map]
  rfl

/-- A type that is found has the name that it was found under. -/
theorem Named.name_of_type? (hnamed : C.Named) (h : C.type? name = some type) :
    type.name = name := by
  rw [type?, Option.map_eq_some_iff] at h
  obtain ⟨entry, hentry, htype⟩ := h
  have hname := name_arrayOf_go (hnamed _ _ hentry)
  rw [← htype]
  simpa [splitArrayName] using hname

/-- Every type of the first catalog is found in the second under the same name. -/
def KnownIn (C D : Catalog) : Prop :=
  ∀ name type, C.type? name = some type → D.type? name = some type

theorem knownIn_of_plainType?
    (h : ∀ name type, C.plainType? name = some type → D.plainType? name = some type) :
    C.KnownIn D := by
  intro name type htype
  rw [type?_eq_plainType?, Option.map_eq_some_iff] at htype ⊢
  obtain ⟨element, helement, harray⟩ := htype
  exact ⟨element, h _ _ helement, harray⟩

/-! ## The entry of a declaration -/

/-- What a method returns, by its declaration: the type of no value if that is silent. -/
def Returns (C : Catalog) : Option String → HostType → Prop
  | some name, type => C.type? name = some type
  | none, type => type = .void

/-- A field of a declaration, with its type resolved. -/
def IsFieldOf (C : Catalog) (decl : TypeDecl) (written : FieldDecl) (field : Field) : Prop :=
  ∃ type, C.type? written.type = some type ∧
    { declaring := decl.type, name := written.name, type, isStatic := written.isStatic } = field

def IsPropertyOf (C : Catalog) (decl : TypeDecl) (written : PropertyDecl) (property : Property) :
    Prop :=
  ∃ type, C.type? written.type = some type ∧
    { declaring := decl.type, name := written.name, type, isStatic := written.isStatic,
      writable := written.writable } = property

def IsMethodOf (C : Catalog) (decl : TypeDecl) (written : MethodDecl) (method : Method) : Prop :=
  ∃ params, List.Forall₂ (fun name type => C.type? name = some type) written.params params ∧
    ∃ returns, C.Returns written.returns returns ∧
      { declaring := decl.type, name := written.name, params, returns,
        isStatic := written.isStatic, genericArity := written.genericArity } = method

/-- What an entry is to a declaration whose references a catalog resolves. -/
structure IsEntryOf (C : Catalog) (decl : TypeDecl) (entry : CatalogEntry) : Prop where
  type : entry.type = decl.type
  base : entry.base = decl.base
  baseKnown : ∀ base, decl.base = some base → ∃ type, C.type? base = some type
  fields : List.Forall₂ (C.IsFieldOf decl) decl.fields entry.fields
  properties : List.Forall₂ (C.IsPropertyOf decl) decl.properties entry.properties
  methods : List.Forall₂ (C.IsMethodOf decl) decl.methods entry.methods

theorem resolve_eq_ok_iff {member : String} :
    C.resolve decl member name = .ok type ↔ C.type? name = some type := by
  rw [resolve]
  cases C.type? name <;> simp

/-- The method that a declaration describes, its parameters resolved before what it returns. -/
def resolveMethod (C : Catalog) (decl : TypeDecl) (method : MethodDecl) :
    Except CatalogError Method := do
  let params ← method.params.mapM (C.resolve decl method.name)
  let returns ← match method.returns with
    | some name => C.resolve decl method.name name
    | none => .ok .void
  return { declaring := decl.type, name := method.name, params, returns,
           isStatic := method.isStatic, genericArity := method.genericArity }

/-- What is left to resolve once the base of a declaration is known. -/
def resolveMembers (C : Catalog) (decl : TypeDecl) : Except CatalogError CatalogEntry := do
  let fields ← decl.fields.mapM fun field => do
    return { declaring := decl.type, name := field.name,
             type := ← C.resolve decl field.name field.type, isStatic := field.isStatic }
  let properties ← decl.properties.mapM fun property => do
    return { declaring := decl.type, name := property.name,
             type := ← C.resolve decl property.name property.type,
             isStatic := property.isStatic, writable := property.writable }
  let methods ← decl.methods.mapM (C.resolveMethod decl)
  return { type := decl.type, base := decl.base, fields, properties, methods }

theorem resolveEntry_eq :
    C.resolveEntry decl = match decl.base with
      | some base => do
        let _ ← C.resolve decl baseMember base
        C.resolveMembers decl
      | none => C.resolveMembers decl := by
  unfold resolveEntry
  cases hbase : decl.base <;> simp only [resolveMembers, hbase] <;> rfl

theorem resolveMethod_eq_ok_iff {written : MethodDecl} {method : Method} :
    C.resolveMethod decl written = .ok method ↔ C.IsMethodOf decl written method := by
  rw [resolveMethod, IsMethodOf]
  cases hreturns : written.returns with
  | none =>
    simp only [except_bind_eq_ok_iff, except_mapM_eq_ok_iff, except_pure_eq_ok_iff,
      resolve_eq_ok_iff, Returns, Except.ok.injEq, eq_comm (a := HostType.void)]
  | some name =>
    simp only [except_bind_eq_ok_iff, except_mapM_eq_ok_iff, except_pure_eq_ok_iff,
      resolve_eq_ok_iff, Returns]

theorem resolveMembers_eq_ok_iff :
    C.resolveMembers decl = .ok entry ↔
      ∃ fields, List.Forall₂ (C.IsFieldOf decl) decl.fields fields ∧
      ∃ properties, List.Forall₂ (C.IsPropertyOf decl) decl.properties properties ∧
      ∃ methods, List.Forall₂ (C.IsMethodOf decl) decl.methods methods ∧
        { type := decl.type, base := decl.base, fields, properties, methods } = entry := by
  simp only [resolveMembers, except_bind_eq_ok_iff, except_mapM_eq_ok_iff, except_pure_eq_ok_iff,
    resolve_eq_ok_iff, resolveMethod_eq_ok_iff]
  rfl

theorem resolveEntry_eq_ok_iff_members :
    C.resolveEntry decl = .ok entry ↔
      (∀ base, decl.base = some base → ∃ type, C.type? base = some type) ∧
        C.resolveMembers decl = .ok entry := by
  rw [resolveEntry_eq]
  cases hbase : decl.base <;> simp [except_bind_eq_ok_iff, resolve_eq_ok_iff]

/-- A declaration resolves to an entry exactly if its base and all names in its members are
known, and the entry has the types of these names. -/
theorem resolveEntry_eq_ok_iff : C.resolveEntry decl = .ok entry ↔ C.IsEntryOf decl entry := by
  rw [resolveEntry_eq_ok_iff_members, resolveMembers_eq_ok_iff]
  constructor
  · rintro ⟨hbase, fields, hfields, properties, hproperties, methods, hmethods, rfl⟩
    exact ⟨rfl, rfl, hbase, hfields, hproperties, hmethods⟩
  · intro h
    refine ⟨h.baseKnown, _, h.fields, _, h.properties, _, h.methods, ?_⟩
    rw [← h.type, ← h.base]

/-! ## Catalogs that know more -/

theorem Returns.mono (h : C.KnownIn D) {returns : Option String}
    (hreturns : C.Returns returns type) : D.Returns returns type := by
  cases returns with
  | none => exact hreturns
  | some name => exact h _ _ hreturns

/-- What a declaration resolves to stays the same when more types are known. -/
theorem IsEntryOf.mono (h : C.KnownIn D) (hentry : C.IsEntryOf decl entry) :
    D.IsEntryOf decl entry where
  type := hentry.type
  base := hentry.base
  baseKnown := by
    intro base hbase
    obtain ⟨type, hknown⟩ := hentry.baseKnown base hbase
    exact ⟨type, h _ _ hknown⟩
  fields := by
    refine hentry.fields.imp fun written field => ?_
    rintro ⟨type, hknown, hfield⟩
    exact ⟨type, h _ _ hknown, hfield⟩
  properties := by
    refine hentry.properties.imp fun written property => ?_
    rintro ⟨type, hknown, hproperty⟩
    exact ⟨type, h _ _ hknown, hproperty⟩
  methods := by
    refine hentry.methods.imp fun written method => ?_
    rintro ⟨params, hparams, returns, hreturns, hmethod⟩
    exact ⟨params, hparams.imp fun _ _ => h _ _, returns, hreturns.mono h, hmethod⟩

end Catalog

end Interop
