import Interop.Analysis.TypeName
import Mathlib.Data.List.Basic

/-! Names of arrays. A suffix that is put behind a name is the first to be taken off again, and what
is left is the name as it was. No tag of a primitive type has a point or ends in a suffix. -/

namespace Interop

/-! ## Suffixes -/

theorem splitArrayName_of_plain {name : String} (h : (splitArrayName name).2 = 0) :
    splitArrayName name = (name, 0) := by
  have hgo : ∀ text, (splitArrayName.go text).2 = 0 → splitArrayName.go text = (text, 0) := by
    intro text htext
    fun_cases splitArrayName.go text with
    | case1 => simp_all [splitArrayName.go]
    | case2 hsuffix => rfl
  have htext := hgo name.toList.reverse h
  simp [splitArrayName, htext]

theorem splitArrayName_append_suffix (name : String) :
    splitArrayName (name ++ arraySuffix) =
      ((splitArrayName name).1, (splitArrayName name).2 + 1) := by
  simp [splitArrayName, splitArrayName.go, arraySuffix]

theorem splitArrayName_arrayName {base : String} (h : (splitArrayName base).2 = 0) (rank : Nat) :
    splitArrayName (arrayName base rank) = (base, rank) := by
  induction rank with
  | zero => exact splitArrayName_of_plain h
  | succ rank ih => rw [arrayName, splitArrayName_append_suffix, ih]

/-- Suffixes that are taken off a name can be put back. -/
theorem arrayName_splitArrayName (name : String) :
    arrayName (splitArrayName name).1 (splitArrayName name).2 = name := by
  have hgo : ∀ text, arrayName (String.ofList (splitArrayName.go text).1.reverse)
      (splitArrayName.go text).2 = String.ofList text.reverse := by
    intro text
    induction text using splitArrayName.go.induct with
    | case1 rest _ _ _ ih =>
      simp only [splitArrayName.go, arrayName, ih, List.reverse_cons, String.ofList_append]
      rw [String.append_assoc]
      rfl
    | case2 text hsuffix =>
      rw [splitArrayName.go]
      · rfl
      · exact hsuffix
  simpa [splitArrayName] using hgo name.toList.reverse

/-- A name that does not end in an array suffix has none to take off. -/
theorem splitArrayName_rank {name : String} (h : ¬ arraySuffix.toList <:+ name.toList) :
    (splitArrayName name).2 = 0 := by
  have hgo : ∀ text, ¬ arraySuffix.toList <:+ text.reverse → (splitArrayName.go text).2 = 0 := by
    intro text htext
    fun_cases splitArrayName.go text with
    | case1 rest =>
      refine absurd ⟨rest.reverse, ?_⟩ htext
      simp [arraySuffix]
    | case2 hsuffix => rfl
  exact hgo name.toList.reverse (by simpa using h)

theorem splitArrayName_base (name : String) :
    (splitArrayName (splitArrayName name).1).2 = 0 := by
  have hgo : ∀ text, (splitArrayName.go (splitArrayName.go text).1).2 = 0 := by
    intro text
    induction text using splitArrayName.go.induct with
    | case1 rest _ _ _ ih => simpa only [splitArrayName.go] using ih
    | case2 text hsuffix =>
      have hplain : splitArrayName.go text = (text, 0) := by
        rw [splitArrayName.go]
        exact hsuffix
      rw [hplain, hplain]
  simpa [splitArrayName] using hgo name.toList.reverse

theorem splitArrayName_rank_eq_zero_iff {name : String} :
    (splitArrayName name).2 = 0 ↔ ∀ element, name ≠ element ++ arraySuffix := by
  constructor
  · rintro hrank element rfl
    rw [splitArrayName_append_suffix] at hrank
    cases hrank
  · intro hplain
    cases hrank : (splitArrayName name).2 with
    | zero => rfl
    | succ rank =>
      have hname := arrayName_splitArrayName name
      rw [hrank] at hname
      exact absurd hname.symm (hplain _)

/-- The array type of a name is known exactly if the name is. -/
theorem Catalog.type?_append_suffix (catalog : Catalog) (name : String) :
    catalog.type? (name ++ arraySuffix) = (catalog.type? name).map .array := by
  simp only [Catalog.type?, splitArrayName_append_suffix, Option.map_map]
  rfl

/-! ## Points and tags -/

theorem isDotted_arrayName {base : String} (hdotted : isDotted base) (rank : Nat) :
    isDotted (arrayName base rank) := by
  induction rank with
  | zero => exact hdotted
  | succ rank ih =>
    simp only [isDotted, Bool.and_eq_true, List.contains_iff_mem, decide_eq_true_eq] at ih ⊢
    obtain ⟨hpoint, hhead⟩ := ih
    have happend : (arrayName base (rank + 1)).toList =
        (arrayName base rank).toList ++ arraySuffix.toList := String.toList_append
    rw [happend]
    refine ⟨List.mem_append_left _ hpoint, ?_⟩
    rw [List.head?_append_of_ne_nil _ (List.ne_nil_of_mem hpoint)]
    exact hhead

theorem mem_tagTable {tag : String} {type : HostType} (h : primitiveTag? tag = some type) :
    (tag, type) ∈ tagTable := by
  obtain ⟨before, after, htags, -⟩ := List.lookup_eq_some_iff.mp h
  rw [htags]
  simp

/-- Tags have no points. -/
theorem primitiveTag?_of_isDotted {name : String} (hdotted : isDotted name) :
    primitiveTag? name = none := by
  have htable : ∀ tag ∈ tagTable, isDotted tag.1 = false := by decide +kernel
  refine Option.eq_none_iff_forall_ne_some.mpr fun type hfound => ?_
  rw [htable _ (mem_tagTable hfound)] at hdotted
  cases hdotted

/-- Tags are no array names. -/
theorem primitiveTag?_append_suffix (name : String) :
    primitiveTag? (name ++ arraySuffix) = none := by
  have htable : ∀ tag ∈ tagTable, (splitArrayName tag.1).2 = 0 := by decide +kernel
  refine Option.eq_none_iff_forall_ne_some.mpr fun type hfound => ?_
  have hrank := htable _ (mem_tagTable hfound)
  rw [splitArrayName_append_suffix] at hrank
  cases hrank

end Interop
