import Interop.Catalog.Builtin
import Interop.Proofs.Analysis.ArrayName
import Interop.Proofs.Logged

/-! What a name with array suffixes has to denote. The lookup asks the host, the tags and the
aliases anew at every suffix, but over a catalog only the base of the name decides: the catalog
knows an array name exactly if it knows the base, and no tag is an array name. So the type is that
of the base, in as many arrays as there are suffixes. -/

namespace Interop

variable {catalog : Catalog} {context : Context} {base : String} {rank : Nat} {type : HostType}
  {span : Span}

/-! ## One suffix -/

/-- The result for an array name that the host does not know, by that for the element. -/
theorem lookupArray_result_succ
    (hunknown : context.host.type? (arrayName base (rank + 1)) = none) :
    (lookupArray context span base (rank + 1)).result =
      match primitiveTag? (arrayName base rank) with
      | some type => .ok (.array type)
      | none =>
        if isDotted (arrayName base rank) || 0 < rank then
          (lookupArray context span base rank).result.map .array
        else match context.names.lookup? (arrayName base rank) with
          | some (.type type) => .ok (.array type)
          | _ => .error (.unresolvedType (arrayName base (rank + 1)) span) := by
  rw [lookupArray, Context.findType?, hunknown, Logged.result_bind]
  show Logged.result (match primitiveTag? (arrayName base rank) with | some _ => _ | none => _) = _
  cases primitiveTag? (arrayName base rank) with
  | some type => rfl
  | none =>
    dsimp only
    split
    · rw [Logged.result_bind]
      cases (lookupArray context span base rank).result <;> rfl
    · rcases context.names.lookup? (arrayName base rank) with _ | type | var <;> rfl

theorem lookupArray_result_of_known
    (hknown : context.host.type? (arrayName base rank) = some type) :
    (lookupArray context span base rank).result = .ok type := by
  cases rank with
  | zero =>
    rw [arrayName] at hknown
    rw [lookupArray, Context.findType?, hknown]
    rfl
  | succ rank =>
    rw [lookupArray, Context.findType?, hknown]
    rfl

theorem lookupArray_zero_result_of_unknown (hunknown : context.host.type? base = none) :
    (lookupArray context span base 0).result = .error (.unresolvedType base span) := by
  rw [lookupArray, Context.findType?, hunknown]
  rfl

/-- Further suffixes only wrap what the first one gives. -/
theorem lookupArray_result_of_unknown {first : Except InteropError HostType}
    (hunknown : ∀ rank, context.host.type? (arrayName base rank) = none)
    (hfirst : (lookupArray context span base 1).result = first.map .array) (rank : Nat) :
    (lookupArray context span base (rank + 1)).result = first.map (·.arrayOf (rank + 1)) := by
  induction rank with
  | zero => exact hfirst
  | succ rank ih =>
    -- The element is an array name itself, so that neither tags nor aliases are looked at.
    have htag : primitiveTag? (arrayName base (rank + 1)) = none := primitiveTag?_append_suffix _
    have hinner : (isDotted (arrayName base (rank + 1)) || decide (0 < rank + 1)) = true := by simp
    rw [lookupArray_result_succ (hunknown _)]
    simp only [htag, hinner, if_true, ih]
    cases first <;> rfl

/-! ## All suffixes -/

/-- A catalog knows the arrays of the types that it knows, and no others. -/
theorem Catalog.type?_arrayName (catalog : Catalog) (base : String) (rank : Nat) :
    catalog.type? (arrayName base rank) = (catalog.type? base).map (·.arrayOf rank) := by
  induction rank with
  | zero => simp [arrayName, HostType.arrayOf]
  | succ rank ih =>
    rw [arrayName, catalog.type?_append_suffix, ih, Option.map_map]
    rfl

/-- The type that a name stands for in front of a number of array suffixes: what the catalog knows
by it, and else, if there is a suffix, a primitive tag or the alias of a name that is not dotted. -/
inductive Context.DenotesUnder (context : Context) (catalog : Catalog) (base : String)
    (rank : Nat) : HostType → Prop
  | known {type : HostType} :
      catalog.type? base = some type → context.DenotesUnder catalog base rank type
  | tag {type : HostType} :
      catalog.type? base = none → 0 < rank → primitiveTag? base = some type →
      context.DenotesUnder catalog base rank type
  | ofAlias {type : HostType} :
      catalog.type? base = none → 0 < rank → primitiveTag? base = none → ¬ isDotted base →
      context.names.lookup? base = some (.type type) → context.DenotesUnder catalog base rank type

/-- The name that a lookup ends with when it finds no type: the base, if it is looked up itself
because it has no suffix or is dotted, and else the base with one suffix. -/
def unresolvedName (base : String) (rank : Nat) : String :=
  if rank = 0 ∨ isDotted base then base else base ++ arraySuffix

section

variable (hhost : context.host = catalog.host)

include hhost

theorem host_type?_arrayName :
    context.host.type? (arrayName base rank) = (catalog.type? base).map (·.arrayOf rank) := by
  rw [hhost]
  exact catalog.type?_arrayName base rank

theorem host_type?_eq_none (hnone : catalog.type? base = none) (rank : Nat) :
    context.host.type? (arrayName base rank) = none := by
  rw [host_type?_arrayName hhost, hnone, Option.map_none]

theorem lookupArray_result_of_denotesUnder (h : context.DenotesUnder catalog base rank type) :
    (lookupArray context span base rank).result = .ok (type.arrayOf rank) := by
  cases h with
  | known hknown =>
    apply lookupArray_result_of_known
    rw [host_type?_arrayName hhost, hknown, Option.map_some]
  | tag hnone hrank htag =>
    have hunknown := host_type?_eq_none hhost hnone
    obtain ⟨rank, rfl⟩ := Nat.exists_eq_add_one.mpr hrank
    have hfirst : (lookupArray context span base 1).result = (Except.ok type).map .array := by
      rw [lookupArray_result_succ (hunknown 1)]
      simp only [arrayName, htag, Except.map]
    exact lookupArray_result_of_unknown hunknown hfirst rank
  | ofAlias hnone hrank htag hplain halias =>
    have hunknown := host_type?_eq_none hhost hnone
    obtain ⟨rank, rfl⟩ := Nat.exists_eq_add_one.mpr hrank
    have hfirst : (lookupArray context span base 1).result = (Except.ok type).map .array := by
      rw [lookupArray_result_succ (hunknown 1)]
      simp [arrayName, htag, hplain, halias, Except.map]
    exact lookupArray_result_of_unknown hunknown hfirst rank

theorem lookupArray_result_of_not_denotesUnder
    (h : ∀ type, ¬ context.DenotesUnder catalog base rank type) :
    (lookupArray context span base rank).result =
      .error (.unresolvedType (unresolvedName base rank) span) := by
  have hnone : catalog.type? base = none :=
    Option.eq_none_iff_forall_ne_some.mpr fun type hknown => h type (.known hknown)
  have hunknown := host_type?_eq_none hhost hnone
  have hbase : (lookupArray context span base 0).result = .error (.unresolvedType base span) :=
    lookupArray_zero_result_of_unknown (hunknown 0)
  cases rank with
  | zero => exact hbase
  | succ rank =>
    have htag : primitiveTag? base = none := Option.eq_none_iff_forall_ne_some.mpr
      fun type htag => h type (.tag hnone rank.succ_pos htag)
    have hfirst : (lookupArray context span base 1).result =
        (Except.error (.unresolvedType (unresolvedName base (rank + 1)) span)).map .array := by
      rw [lookupArray_result_succ (hunknown 1)]
      by_cases hdotted : isDotted base
      · simp [arrayName, htag, hdotted, hbase, unresolvedName, Except.map]
      · have halias (type : HostType) : context.names.lookup? base ≠ some (.type type) :=
          fun halias => h type (.ofAlias hnone rank.succ_pos htag hdotted halias)
        rcases hlookup : context.names.lookup? base with _ | found | var
        · simp [arrayName, htag, hdotted, hlookup, unresolvedName, Except.map]
        · exact absurd hlookup (halias found)
        · simp [arrayName, htag, hdotted, hlookup, unresolvedName, Except.map]
    exact lookupArray_result_of_unknown hunknown hfirst rank

end

/-- **The exact meaning of a name that has to be a type.** Over a catalog, a base with array
suffixes denotes the arrays of the one type that the catalog, the primitive tags or the aliases have
for the base, asked in this order and the latter two only in front of a suffix. If none has one, the
lookup fails with the name that it came to. -/
theorem lookupType_ok_iff_denotesUnder (hhost : context.host = catalog.host)
    (hbase : ∀ element, base ≠ element ++ arraySuffix) (rank : Nat) (span : Span) :
    (∀ type, (lookupType context (arrayName base rank) span).result = .ok type ↔
      ∃ element, context.DenotesUnder catalog base rank element ∧ type = element.arrayOf rank) ∧
    ((¬ ∃ element, context.DenotesUnder catalog base rank element) →
      (lookupType context (arrayName base rank) span).result =
        .error (.unresolvedType (unresolvedName base rank) span)) := by
  have hlookup : lookupType context (arrayName base rank) span =
      lookupArray context span base rank := by
    rw [lookupType, splitArrayName_arrayName (splitArrayName_rank_eq_zero_iff.mpr hbase)]
  rw [hlookup]
  refine ⟨fun type => ⟨fun hfound => ?_, ?_⟩, fun hnone => ?_⟩
  · by_cases hdenotes : ∃ element, context.DenotesUnder catalog base rank element
    · obtain ⟨element, helement⟩ := hdenotes
      rw [lookupArray_result_of_denotesUnder hhost helement] at hfound
      exact ⟨element, helement, (Except.ok.inj hfound).symm⟩
    · rw [lookupArray_result_of_not_denotesUnder hhost (not_exists.mp hdenotes)] at hfound
      cases hfound
  · rintro ⟨element, helement, rfl⟩
    exact lookupArray_result_of_denotesUnder hhost helement
  · exact lookupArray_result_of_not_denotesUnder hhost (not_exists.mp hnone)

/-- Arrays of an alias, and a dotted name that nothing is known by. -/
theorem lookupType_ok_iff_denotesUnder_alias :
    let context : Context :=
      { host := Catalog.builtin.host, names := Namespace.addAlias { name := "user" } "Text" .string,
        source := "alias" }
    (lookupType context "Text[][]" {}).result = .ok (.array (.array .string)) ∧
      (lookupType context "No.Where[][]" {}).result = .error (.unresolvedType "No.Where" {}) := by
  intro context
  have hhost : context.host = Catalog.builtin.host := rfl
  have hunknown : Catalog.builtin.type? "Text" = none ∧
      Catalog.builtin.type? "No.Where" = none := by decide +kernel
  obtain ⟨htext, hnowhere⟩ := hunknown
  have hplain : (splitArrayName "Text").2 = 0 ∧ (splitArrayName "No.Where").2 = 0 := by decide
  have halias := lookupType_ok_iff_denotesUnder hhost
    (splitArrayName_rank_eq_zero_iff.mp hplain.1) 2 {}
  have hdotted := lookupType_ok_iff_denotesUnder hhost
    (splitArrayName_rank_eq_zero_iff.mp hplain.2) 2 {}
  refine ⟨?_, hdotted.2 ?_⟩
  · exact (halias.1 _).mpr
      ⟨.string, .ofAlias htext (by decide) (by decide) (by decide) rfl, rfl⟩
  · rintro ⟨element, hknown | ⟨-, -, htag⟩ | ⟨-, -, -, hpoint, -⟩⟩
    · rw [hnowhere] at hknown
      cases hknown
    · rw [primitiveTag?_of_isDotted (by decide)] at htag
      cases htag
    · exact hpoint (by decide)

end Interop
