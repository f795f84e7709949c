import Interop.Catalog.Document
import Interop.Proofs.Analysis.ArrayName
import Interop.Proofs.Analysis.Inversion
import Interop.Proofs.Catalog.Reach

/-! Names of types. The same name may be looked up as a tag, as the element of an array, as the
target of an access or as a value, and each asks the tags, the aliases and the host in an order of
its own. Here is what each finds, and when two of them agree. -/

namespace Interop

variable {context : Context} {name : String} {type : HostType} {symbol : Symbol} {span : Span}

/-! ## Names that have to be types -/

/-- A name with a point or an array suffix has to be a type. -/
def NamesType (name : String) : Prop := isDotted name ∨ 0 < (splitArrayName name).2

theorem namesType_iff :
    NamesType name ↔ (isDotted name || decide (0 < (splitArrayName name).2)) = true := by
  rw [NamesType, Bool.or_eq_true, decide_eq_true_eq]

theorem namesType_append_suffix (name : String) : NamesType (name ++ arraySuffix) := by
  right
  rw [splitArrayName_append_suffix]
  exact Nat.succ_pos _

mutual

/-- What a name denotes that has to be a type: what the host knows by it, and else an array. -/
inductive Context.Denotes (context : Context) : String → HostType → Prop
  | known {name : String} {type : HostType} :
      context.host.type? name = some type → context.Denotes name type
  | array {name : String} {type : HostType} :
      context.host.type? (name ++ arraySuffix) = none → context.DenotesElement name type →
      context.Denotes (name ++ arraySuffix) (.array type)

/-- What a name denotes in front of an array suffix. -/
inductive Context.DenotesElement (context : Context) : String → HostType → Prop
  | tag {name : String} {type : HostType} :
      primitiveTag? name = some type → context.DenotesElement name type
  | type {name : String} {type : HostType} :
      primitiveTag? name = none → NamesType name → context.Denotes name type →
      context.DenotesElement name type
  | ofAlias {name : String} {type : HostType} :
      primitiveTag? name = none → ¬ NamesType name →
      context.names.lookup? name = some (.type type) → context.DenotesElement name type

end

theorem denotes_iff_of_known {known : HostType} (hhost : context.host.type? name = some known) :
    context.Denotes name type ↔ known = type := by
  constructor
  · intro h
    cases h with
    | known hknown => exact Option.some.inj (hhost.symm.trans hknown)
    | array hnone =>
      rw [hnone] at hhost
      cases hhost
  · rintro rfl
    exact .known hhost

/-- What the host does not know denotes something only as an array name. -/
theorem Context.Denotes.exists_element (h : context.Denotes name type)
    (hhost : context.host.type? name = none) :
    ∃ base element, name = base ++ arraySuffix ∧ type = .array element ∧
      context.DenotesElement base element := by
  cases h with
  | known hknown =>
    rw [hhost] at hknown
    cases hknown
  | array _ helement => exact ⟨_, _, rfl, rfl, helement⟩

theorem denotes_append_suffix (hhost : context.host.type? (name ++ arraySuffix) = none) :
    context.Denotes (name ++ arraySuffix) type ↔
      ∃ element, context.DenotesElement name element ∧ .array element = type := by
  constructor
  · intro h
    obtain ⟨base, element, hname, htype, helement⟩ := h.exists_element hhost
    rw [← (String.append_left_inj arraySuffix).mp hname] at helement
    exact ⟨element, helement, htype.symm⟩
  · rintro ⟨element, helement, rfl⟩
    exact .array hhost helement

theorem denotesElement_iff_of_tag {tag : HostType} (htag : primitiveTag? name = some tag) :
    context.DenotesElement name type ↔ tag = type := by
  constructor
  · rintro (hsame | ⟨hnone, _, _⟩ | ⟨hnone, _, _⟩)
    · exact Option.some.inj (htag.symm.trans hsame)
    · rw [htag] at hnone
      cases hnone
    · rw [htag] at hnone
      cases hnone
  · rintro rfl
    exact .tag htag

theorem denotesElement_iff_of_namesType (htag : primitiveTag? name = none)
    (hname : NamesType name) :
    context.DenotesElement name type ↔ context.Denotes name type := by
  constructor
  · rintro (hsome | ⟨_, _, h⟩ | ⟨_, hplain, _⟩)
    · rw [htag] at hsome
      cases hsome
    · exact h
    · exact absurd hname hplain
  · exact .type htag hname

theorem denotesElement_iff_of_plain (htag : primitiveTag? name = none) (hplain : ¬ NamesType name) :
    context.DenotesElement name type ↔ context.names.lookup? name = some (.type type) := by
  constructor
  · rintro (hsome | ⟨_, hname, _⟩ | ⟨_, _, h⟩)
    · rw [htag] at hsome
      cases hsome
    · exact absurd hname hplain
    · exact h
  · exact .ofAlias htag hplain

theorem findType?_bind_ok_iff {α : Type} {f : Option HostType → Analysis α} {a : α} :
    (context.findType? name >>= f).result = .ok a ↔ (f (context.host.type? name)).result = .ok a :=
  Iff.rfl

theorem lookupArray_ok_iff {base : String} (hbase : (splitArrayName base).2 = 0) {rank : Nat} :
    (lookupArray context span base rank).result = .ok type ↔
      context.Denotes (arrayName base rank) type := by
  induction rank generalizing type with
  | zero =>
    rw [lookupArray, findType?_bind_ok_iff, arrayName]
    cases hhost : context.host.type? base with
    | some known => rw [denotes_iff_of_known hhost, Logged.pure_ok_iff]
    | none =>
      rw [Logged.fail_ok_iff, false_iff]
      intro h
      obtain ⟨element, _, rfl, -⟩ := h.exists_element hhost
      rw [splitArrayName_append_suffix] at hbase
      cases hbase
  | succ rank ih =>
    rw [lookupArray, findType?_bind_ok_iff, arrayName]
    cases hhost : context.host.type? (arrayName base rank ++ arraySuffix) with
    | some known => rw [denotes_iff_of_known hhost, Logged.pure_ok_iff]
    | none =>
      -- The lookup goes by the rank, which is that of the name since the base has no suffix.
      have hname : NamesType (arrayName base rank) ↔
          (isDotted (arrayName base rank) || decide (0 < rank)) = true := by
        rw [namesType_iff, splitArrayName_arrayName hbase]
      rw [denotes_append_suffix hhost]
      dsimp only
      cases htag : primitiveTag? (arrayName base rank) with
      | some tag => simp only [Logged.pure_ok_iff, denotesElement_iff_of_tag htag, exists_eq_left']
      | none =>
        dsimp only
        split
        · rename_i hdecided
          simp only [Logged.bind_ok_iff, Logged.pure_ok_iff, ih,
            denotesElement_iff_of_namesType htag (hname.mpr hdecided)]
        · rename_i hdecided
          simp only [denotesElement_iff_of_plain htag (mt hname.mp hdecided)]
          split
          · rename_i element halias
            simp [Logged.pure_ok_iff, halias]
          · rename_i hnone
            simp only [Logged.fail_ok_iff, false_iff]
            rintro ⟨element, halias, -⟩
            exact hnone element halias

/-- Looking up a name that has to be a type gives what it denotes. -/
theorem lookupType_ok_iff :
    (lookupType context name span).result = .ok type ↔ context.Denotes name type := by
  conv_rhs => rw [← arrayName_splitArrayName name]
  exact lookupArray_ok_iff (splitArrayName_base name)

/-! ## Symbols -/

/-- A local variable or a qualifier keeps a symbol from denoting a type. -/
def Context.Hides (context : Context) (symbol : Symbol) : Prop :=
  context.locals.binds symbol ∨ symbol.isQualified

theorem symbolType?_of_hides (hhidden : context.Hides symbol) :
    symbolType? context symbol span = pure none := by
  rw [symbolType?, if_pos (by rwa [Bool.or_eq_true])]

theorem symbolType?_ok_iff_of_namesType (hseen : ¬ context.Hides symbol)
    (hname : NamesType symbol.name) :
    (symbolType? context symbol span).result = .ok (some type) ↔
      context.Denotes symbol.name type := by
  rw [symbolType?, if_neg (by rwa [Bool.or_eq_true]), if_pos (namesType_iff.mp hname)]
  simp only [Logged.bind_ok_iff, Logged.pure_ok_iff, lookupType_ok_iff, Option.some.injEq,
    exists_eq_right]

theorem symbolType?_ok_iff_of_plain (hseen : ¬ context.Hides symbol)
    (hplain : ¬ NamesType symbol.name) :
    (symbolType? context symbol span).result = .ok (some type) ↔
      context.names.lookup? symbol.name = some (.type type) ∨
        context.names.lookup? symbol.name = none ∧
          context.host.type? symbol.name = some type := by
  rw [symbolType?, if_neg (by rwa [Bool.or_eq_true]), if_neg (mt namesType_iff.mpr hplain)]
  cases halias : context.names.lookup? symbol.name with
  | none =>
    rw [Context.findType?, Context.ask, Logged.bind_ok_iff]
    simp [Logged.note, Logged.pure_ok_iff]
  | some mapping => cases mapping <;> simp [Logged.pure_ok_iff]

/-! ## Tags -/

theorem tagType_of_tag {tag : HostType} (htag : primitiveTag? name = some tag) :
    tagType context (.leaf (.symbol { name }) span) = pure tag := by
  simp [tagType, Form.symbol?, Symbol.isQualified, htag]

theorem tagType_ok_iff_of_none (htag : primitiveTag? name = none) :
    (tagType context (.leaf (.symbol { name }) span)).result = .ok type ↔
      (symbolType? context { name } span).result = .ok (some type) := by
  simp only [tagType, Form.symbol?, Symbol.isQualified, Option.bind_some, Option.isSome_none, htag]
  exact Logged.bind_found_ok_iff (fun _ => Logged.pure_ok_iff) (Logged.fail_ok_iff.mp ·)

/-- What a tag denotes, it denotes as an element too, unless the host knows the name. -/
theorem denotesElement_of_tagType (hhost : context.host.type? name = none)
    (h : (tagType context (.leaf (.symbol { name }) span)).result = .ok type) :
    context.DenotesElement name type := by
  cases htag : primitiveTag? name with
  | some tag =>
    rw [tagType_of_tag htag] at h
    exact .tag (htag.trans (congrArg some (Logged.pure_ok h)))
  | none =>
    rw [tagType_ok_iff_of_none htag] at h
    by_cases hhidden : context.Hides { name }
    · rw [symbolType?_of_hides hhidden] at h
      cases Logged.pure_ok h
    · by_cases hname : NamesType name
      · exact .type htag hname ((symbolType?_ok_iff_of_namesType hhidden hname).mp h)
      · rcases (symbolType?_ok_iff_of_plain hhidden hname).mp h with halias | ⟨-, hknown⟩
        · exact .ofAlias htag hname halias
        · rw [hhost] at hknown
          cases hknown

theorem tagType_append_suffix_ok_iff :
    (tagType context (.leaf (.symbol { name := name ++ arraySuffix }) span)).result = .ok type ↔
      ¬ context.Hides { name := name ++ arraySuffix } ∧
        context.Denotes (name ++ arraySuffix) type := by
  rw [tagType_ok_iff_of_none (primitiveTag?_append_suffix name)]
  by_cases hhidden : context.Hides { name := name ++ arraySuffix }
  · simp [symbolType?_of_hides hhidden, Logged.pure_ok_iff, hhidden]
  · rw [symbolType?_ok_iff_of_namesType hhidden (namesType_append_suffix name)]
    simp [hhidden]

/-- **Arrays of tags.** If a tag denotes a type, its array name denotes the array of this type,
unless a local variable hides that name, or the catalog knows another type by the tag. -/
theorem tagType_array_iff {catalog : Catalog} {span' : Span} (hhost : context.host = catalog.host)
    (h : (tagType context (.leaf (.symbol { name }) span)).result = .ok type) :
    (tagType context (.leaf (.symbol { name := name ++ arraySuffix }) span')).result
        = .ok (.array type) ↔
      ¬ context.locals.binds { name := name ++ arraySuffix } ∧
        ∀ known, catalog.type? name = some known → known = type := by
  rw [tagType_append_suffix_ok_iff]
  have hhides : context.Hides { name := name ++ arraySuffix } ↔
      context.locals.binds { name := name ++ arraySuffix } :=
    or_iff_left Bool.false_ne_true
  rw [hhides]
  refine and_congr_right fun _ => ?_
  have hsuffix : context.host.type? (name ++ arraySuffix) = (catalog.type? name).map .array := by
    rw [hhost]
    exact catalog.type?_append_suffix name
  -- The host is asked for the array name first, and knows it exactly if it knows the element.
  cases hknown : catalog.type? name with
  | some known =>
    rw [hknown] at hsuffix
    rw [denotes_iff_of_known hsuffix]
    simp
  | none =>
    rw [hknown] at hsuffix
    rw [denotes_append_suffix hsuffix]
    have hname : context.host.type? name = none := by
      rw [hhost]
      exact hknown
    exact iff_of_true ⟨type, denotesElement_of_tagType hname h, rfl⟩ nofun

/-- An alias and its array name. -/
theorem tagType_array_iff_alias :
    let context : Context :=
      { host := Catalog.builtin.host, names := Namespace.addAlias { name := "user" } "Text" .string,
        source := "alias" }
    let tag (name : String) : Form := .leaf (.symbol { name }) {}
    (tagType context (tag "Text")).result = .ok .string ∧
      (tagType context (tag ("Text" ++ arraySuffix))).result = .ok (.array .string) := by
  intro context tag
  have hruns : (tagType context (tag "Text")).result = .ok .string ∧
      Catalog.builtin.type? "Text" = none := by
    decide +kernel
  obtain ⟨htag, hnone⟩ := hruns
  have hhost : context.host = Catalog.builtin.host := rfl
  refine ⟨htag, (tagType_array_iff hhost htag).mpr ⟨by decide, ?_⟩⟩
  intro known hknown
  rw [hnone] at hknown
  cases hknown

/-- A catalog may know another type by the name of a tag, and a local variable may have an array
name. -/
theorem tagType_array_ne :
    let C := Catalog.after declarations? ["types = [\x7b name = \"int\" \x7d]"]
    let declared : Context := { host := C.host, names := { name := "user" }, source := "int" }
    let bound : Context :=
      { host := Catalog.builtin.host, names := { name := "user" },
        locals := LexicalEnv.bind {} "int[]" none, source := "int" }
    let tag (name : String) : Form := .leaf (.symbol { name }) {}
    (declared.locals.binds { name := "int" } = false ∧
        (tagType declared (tag "int")).result = .ok (.primitive .int32) ∧
        (tagType declared (tag "int[]")).result = .ok (.array (.reference "int"))) ∧
      bound.locals.binds { name := "int" } = false ∧
        (tagType bound (tag "int")).result = .ok (.primitive .int32) ∧
        (tagType bound (tag "int[]")).result = .error (.unresolvedType "int[]" {}) := by
  decide +kernel

/-! ## Values -/

theorem symbolExpr_typeRef_iff_of_not_hides (hseen : ¬ context.Hides symbol) :
    (symbolExpr context symbol span).result = .ok (.typeRef type) ↔
      context.names.lookup? symbol.name = some (.type type) ∨
        context.names.lookup? symbol.name = none ∧
          (symbolType? context symbol span).result = .ok (some type) := by
  obtain ⟨hlocal, hqualified⟩ := not_or.mp hseen
  have hlocal : context.locals.lookup? symbol = none := by
    simpa [LexicalEnv.binds] using hlocal
  rw [symbolExpr, hlocal]
  simp only [hqualified]
  cases halias : context.names.lookup? symbol.name with
  | some mapping => cases mapping <;> simp [Logged.pure_ok_iff]
  | none =>
    have hfound (found : HostType) :
        (pure (.typeRef found) : Analysis Expr).result = .ok (.typeRef type) ↔ found = type := by
      rw [Logged.pure_ok_iff, Expr.typeRef.injEq]
    simp only [reduceCtorEq, false_or, true_and]
    exact Logged.bind_found_ok_iff hfound (Logged.fail_ok_iff.mp ·)

theorem symbolExpr_ne_typeRef (hhidden : context.Hides symbol) :
    (symbolExpr context symbol span).result ≠ .ok (.typeRef type) := by
  intro h
  rw [symbolExpr] at h
  cases hlocal : context.locals.lookup? symbol with
  | some binding =>
    rw [hlocal] at h
    cases h
  | none =>
    have hqualified : symbol.isQualified := by
      simpa [Context.Hides, LexicalEnv.binds, hlocal] using hhidden
    simp only [hlocal, hqualified, if_true] at h
    cases h

/-! ## Values and targets -/

theorem analyze_symbol (context : Context) (symbol : Symbol) (span : Span) :
    analyze context (.leaf (.symbol symbol) span) = symbolExpr context symbol span := by
  rw [analyze_eq]
  rfl

/-- **Types in value position.** A symbol means the types as a value that it denotes as a target,
and no other, exactly if this holds: when an alias or a variable has the name, nothing hides it and
it has to be a type, then it denotes the type of the alias, and nothing if it is a variable. -/
theorem symbol_denotes_alike_iff (context : Context) (symbol : Symbol) (span : Span) :
    (∀ type, (analyze context (.leaf (.symbol symbol) span)).result = .ok (.typeRef type) ↔
      (formType? context false (.leaf (.symbol symbol) span)).result = .ok (some type)) ↔
    (¬ context.Hides symbol → NamesType symbol.name → ∀ mapping,
      context.names.lookup? symbol.name = some mapping →
        ∀ type, mapping = .type type ↔ context.Denotes symbol.name type) := by
  simp only [analyze_symbol, formType?]
  by_cases hhidden : context.Hides symbol
  · have hnone (type : HostType) :
        (symbolType? context symbol span).result ≠ .ok (some type) := by
      rw [symbolType?_of_hides hhidden]
      nofun
    exact iff_of_true (fun type => iff_of_false (symbolExpr_ne_typeRef hhidden) (hnone type))
      fun hseen => absurd hhidden hseen
  · simp only [symbolExpr_typeRef_iff_of_not_hides hhidden, hhidden, not_false_eq_true,
      forall_const]
    by_cases hname : NamesType symbol.name
    · simp only [symbolType?_ok_iff_of_namesType hhidden hname, hname, forall_const]
      cases halias : context.names.lookup? symbol.name with
      | none => simp
      | some mapping => simp
    · simp only [symbolType?_ok_iff_of_plain hhidden hname, hname, false_imp_iff, iff_true]
      intro type
      cases context.names.lookup? symbol.name with
      | none => simp
      | some mapping => simp

/-- An alias with the name of a type: as a value the symbol means the alias, and as a target it
denotes the type. -/
theorem symbol_denotes_other_math :
    let context : Context :=
      { host := Catalog.builtin.host,
        names := Namespace.addAlias { name := "user" } "System.Math" .string, source := "math" }
    let form : Form := .leaf (.symbol { name := "System.Math" }) {}
    (analyze context form).result = .ok (.typeRef .string) ∧
      (formType? context false form).result = .ok (some (.reference "System.Math")) :=
  ⟨rfl, by decide +kernel⟩

end Interop
