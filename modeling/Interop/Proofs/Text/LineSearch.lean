import Interop.Proofs.Text.Bytes
import Mathlib.Data.List.DropRight

/-! Line and column of an offset. Lines start behind the newline bytes, in rising order; so the line
of an offset is found by halving, and its position counts the newlines before it and the bytes after
the last one. -/

namespace Interop

def newlineByte : UInt8 := 10

/-- Whether a position comes before another in a text: on an earlier line, or further left on the
same line. -/
def Position.Before (position other : Position) : Prop :=
  position.line < other.line ∨ position.line = other.line ∧ position.column < other.column

theorem Position.Before.ne {position other : Position} (h : position.Before other) :
    position ≠ other := by
  rintro rfl
  rcases h with h | ⟨-, h⟩ <;> exact Nat.lt_irrefl _ h

namespace LineIndex

/-! ## Newlines among the bytes -/

theorem utf8EncodeChar_newline : String.utf8EncodeChar '\n' = [newlineByte] := by decide

theorem newlineByte_mem_iff {c : Char} : newlineByte ∈ String.utf8EncodeChar c ↔ c = '\n' :=
  mem_utf8EncodeChar_iff (a := '\n') rfl

/-- Lines start just behind the newline bytes, wherever in the text. -/
theorem startsFrom_eq_findIdxs (offset : Nat) (text : List Char) :
    startsFrom offset text = (bytesOf text).findIdxs (· == newlineByte) (offset + 1) := by
  induction text generalizing offset with
  | nil => rfl
  | cons c text ih =>
    rw [startsFrom, ih, bytesOf_cons, List.findIdxs_append, String.length_utf8EncodeChar,
      Nat.add_right_comm]
    by_cases hc : c = '\n'
    · subst hc
      have hsize : '\n'.utf8Size = 1 := rfl
      rw [if_pos rfl, utf8EncodeChar_newline, hsize]
      simp
    · have hnone : (String.utf8EncodeChar c).findIdxs (· == newlineByte) (offset + 1) = [] := by
        rw [List.findIdxs_eq_nil_iff]
        intro byte hbyte
        rw [beq_eq_false_iff_ne]
        rintro rfl
        exact hc (newlineByte_mem_iff.mp hbyte)
      rw [if_neg hc, hnone, List.nil_append]

/-- The lines that have started at an offset are those that start in the bytes before it. -/
theorem takeWhile_findIdxs (p : UInt8 → Bool) (bytes : List UInt8) (offset : Nat) :
    (bytes.findIdxs p 1).takeWhile (· ≤ offset) = (bytes.take offset).findIdxs p 1 := by
  conv_lhs => rw [← List.take_append_drop offset bytes, List.findIdxs_append]
  refine takeWhile_append_eq_left_iff.mpr ⟨fun start hstart => ?_, fun start hstart => ?_⟩
  · have hhigh := List.lt_add_of_mem_findIdxs _ hstart
    rw [List.length_take] at hhigh
    simp only [decide_eq_true_eq]
    omega
  · have hmem := List.mem_of_mem_head? hstart
    have hlow := List.ge_of_mem_findIdxs _ hmem
    have hlong : offset < bytes.length := by
      by_contra hshort
      rw [List.drop_eq_nil_of_le (by omega)] at hmem
      cases hmem
    rw [List.length_take] at hlow
    simp only [decide_eq_false_iff_not]
    omega

/-- The bytes behind the last start of a line are those behind the last newline. -/
theorem length_sub_getLastD_findIdxs (p : UInt8 → Bool) (bytes : List UInt8) :
    (bytes.findIdxs p 1).getLastD 0 ≤ bytes.length ∧
      bytes.length - (bytes.findIdxs p 1).getLastD 0 = (bytes.rtakeWhile (!p ·)).length := by
  induction bytes using List.reverseRecOn with
  | nil => exact ⟨Nat.le_refl _, rfl⟩
  | append_singleton bytes byte ih =>
    obtain ⟨hle, hrest⟩ := ih
    rw [List.findIdxs_append, List.findIdxs_singleton, List.length_append, List.length_singleton]
    by_cases hbyte : p byte = true
    · rw [if_pos hbyte, List.rtakeWhile_concat_neg _ _ _ (by simp [hbyte]),
        List.getLastD_concat, Nat.add_comm 1]
      exact ⟨Nat.le_refl _, Nat.sub_self _⟩
    · rw [if_neg hbyte, List.append_nil, List.rtakeWhile_concat_pos _ _ _ (by simp [hbyte]),
        List.length_append, List.length_singleton]
      omega

/-! ## Halving -/

/-- Looks for a number in a rising list by halving: its index, or else the index at which it would
have to be put in. -/
def search (starts : List Nat) (offset : Nat) : Except Nat Nat := go 0 starts.length
where
  go (low high : Nat) : Except Nat Nat :=
    if low < high then
      let middle := (low + high) / 2
      match compare (starts.getD middle 0) offset with
      | .eq => .ok middle
      | .lt => go (middle + 1) high
      | .gt => go low middle
    else .error low
  termination_by high - low

/-- The number of the line an offset is on, from zero: the line that starts there, or else the one
before the place where a line that starts there would come. -/
def lineAt (lines : LineIndex) (offset : Nat) : Nat :=
  match search (0 :: lines.starts) offset with
  | .ok line => line
  | .error line => line - 1

/-- Where the line of an offset starts. -/
def lineStart (lines : LineIndex) (offset : Nat) : Nat :=
  (0 :: lines.starts).getD (lines.lineAt offset) 0

/-- How many of the numbers are not greater than the one that was looked for. -/
def upTo : Except Nat Nat → Nat
  | .ok index => index + 1
  | .error index => index

/-- While the range that is left gets shorter, all before it is smaller and all behind it greater. -/
theorem search_go_spec {starts : List Nat} (hrising : starts.Pairwise (· < ·)) (offset : Nat)
    {low high : Nat} (hhigh : high ≤ starts.length) (hrange : low ≤ high)
    (hbefore : ∀ i < low, ∀ start ∈ starts[i]?, start < offset)
    (hbehind : ∀ i ≥ high, ∀ start ∈ starts[i]?, offset < start) :
    upTo (search.go starts offset low high) ≤ starts.length ∧
      (∀ i < upTo (search.go starts offset low high), ∀ start ∈ starts[i]?, start ≤ offset) ∧
      ∀ i ≥ upTo (search.go starts offset low high), ∀ start ∈ starts[i]?, offset < start := by
  have hlt : ∀ {i j first second : Nat}, starts[i]? = some first → starts[j]? = some second →
      i < j → first < second := by
    intro i j first second hi hj hij
    obtain ⟨hi', rfl⟩ := List.getElem?_eq_some_iff.mp hi
    obtain ⟨hj', rfl⟩ := List.getElem?_eq_some_iff.mp hj
    exact List.pairwise_iff_getElem.mp hrising i j hi' hj' hij
  have hle : ∀ {i j first second : Nat}, starts[i]? = some first → starts[j]? = some second →
      i ≤ j → first ≤ second := by
    intro i j first second hi hj hij
    rcases Nat.lt_or_eq_of_le hij with hij | rfl
    · exact Nat.le_of_lt (hlt hi hj hij)
    · exact Nat.le_of_eq (Option.some.inj (hi.symm.trans hj))
  have hread : ∀ {i : Nat}, i < starts.length → starts[i]? = some (starts.getD i 0) := by
    intro i hi
    rw [List.getD_eq_getElem?_getD, List.getElem?_eq_getElem hi, Option.getD_some]
  fun_induction search.go starts offset low high with
  | case1 low high hlow middle hcompare =>
    have hinside : middle < starts.length := by omega
    have hmiddle : starts[middle]? = some offset := by
      rw [hread hinside, Nat.compare_eq_eq.mp hcompare]
    exact ⟨hinside, fun i hi start hstart => hle hstart hmiddle (Nat.le_of_lt_succ hi),
      fun i hi start hstart => hlt hmiddle hstart hi⟩
  | case2 low high hlow middle hcompare ih =>
    have hmiddle := hread (show middle < starts.length by omega)
    have hless := Nat.compare_eq_lt.mp hcompare
    exact ih hhigh (by omega) (fun i hi start hstart =>
      Nat.lt_of_le_of_lt (hle hstart hmiddle (Nat.le_of_lt_succ hi)) hless) hbehind
  | case3 low high hlow middle hcompare ih =>
    have hmiddle := hread (show middle < starts.length by omega)
    have hgreater := Nat.compare_eq_gt.mp hcompare
    exact ih (by omega) (by omega) hbefore fun i hi start hstart =>
      Nat.lt_of_lt_of_le hgreater (hle hmiddle hstart hi)
  | case4 low high hlow =>
    obtain rfl : low = high := by omega
    exact ⟨hhigh, fun i hi start hstart => Nat.le_of_lt (hbefore i hi start hstart), hbehind⟩

/-- Halving splits a rising list where its numbers get greater than the one looked for. -/
theorem takeWhile_eq_take_search {starts : List Nat} (hrising : starts.Pairwise (· < ·))
    (offset : Nat) :
    upTo (search starts offset) ≤ starts.length ∧
      starts.takeWhile (· ≤ offset) = starts.take (upTo (search starts offset)) := by
  obtain ⟨hcount, hbefore, hbehind⟩ := search_go_spec hrising offset (Nat.le_refl _)
    (Nat.zero_le _) (fun i hi => absurd hi (Nat.not_lt_zero i))
    (fun i hi start hstart => by simp [List.getElem?_eq_none hi] at hstart)
  rw [← search] at hcount hbefore hbehind
  refine ⟨hcount, ?_⟩
  generalize upTo (search starts offset) = count at hbefore hbehind
  conv_lhs => rw [← List.take_append_drop count starts]
  refine takeWhile_append_eq_left_iff.mpr ⟨fun start hstart => ?_, fun start hstart => ?_⟩
  · obtain ⟨i, hi, rfl⟩ := List.mem_take_iff_getElem.mp hstart
    rw [decide_eq_true_eq]
    exact hbefore i (by omega) _ (List.getElem?_eq_getElem _)
  · rw [List.head?_drop] at hstart
    rw [decide_eq_false_iff_not, Nat.not_le]
    exact hbehind count (Nat.le_refl _) start hstart

/-! ## Positions -/

/-- The starts of lines rise, from the start of the text on. -/
theorem pairwise_starts (text : List Char) : (0 :: (ofText text).starts).Pairwise (· < ·) := by
  refine List.pairwise_cons.mpr ⟨fun start hstart => (bounds_of_mem_startsFrom hstart).1, ?_⟩
  show (startsFrom 0 text).Pairwise (· < ·)
  rw [startsFrom_eq_findIdxs]
  exact List.pairwise_findIdxs

/-- The last line that has started at an offset starts at or before it. -/
theorem getLastD_started_le (lines : LineIndex) (offset : Nat) :
    (lines.starts.takeWhile (· ≤ offset)).getLastD 0 ≤ offset := by
  rw [List.getLastD_eq_getLast?]
  cases hlast : (lines.starts.takeWhile (· ≤ offset)).getLast? with
  | none => exact Nat.zero_le _
  | some start => simpa using List.mem_takeWhile_imp (List.mem_of_getLast? hlast)

theorem getLastD_take (first : Nat) {starts : List Nat} {count : Nat} (h : count ≤ starts.length) :
    (starts.take count).getLastD first = (first :: starts).getD count first := by
  rw [List.getLastD_eq_getLast?, List.getLast?_take]
  cases count with
  | zero => rfl
  | succ count => simp [List.getElem?_eq_getElem (show count < starts.length by omega)]

/-- Halving finds the line of an offset, and where it starts. -/
theorem position_eq_search (text : List Char) (offset : Nat) :
    (ofText text).position offset =
        { line := (ofText text).lineAt offset + 1
          column := offset - (ofText text).lineStart offset + 1 } ∧
      (ofText text).lineStart offset ≤ offset := by
  have hline : (ofText text).lineAt offset =
      upTo (search (0 :: (ofText text).starts) offset) - 1 := by
    unfold lineAt
    cases search (0 :: (ofText text).starts) offset <;> rfl
  obtain ⟨hcount, hsplit⟩ := takeWhile_eq_take_search (pairwise_starts text) offset
  rw [List.takeWhile_cons_of_pos (by simp)] at hsplit
  have hle := getLastD_started_le (ofText text) offset
  rw [position, lineStart, hline]
  cases hupTo : upTo (search (0 :: (ofText text).starts) offset) with
  | zero =>
    rw [hupTo] at hsplit
    cases hsplit
  | succ count =>
    rw [hupTo] at hsplit hcount
    have hstarted := (List.cons.inj hsplit).2
    have hlength : ((ofText text).starts.take count).length = count :=
      List.length_take_of_le (Nat.le_of_succ_le_succ hcount)
    have hstart := getLastD_take 0 (Nat.le_of_succ_le_succ hcount)
    rw [hstarted, hstart] at hle
    rw [hstarted, hlength, hstart]
    exact ⟨rfl, hle⟩

/-- The position of an offset is told by the bytes before it. -/
theorem position_eq_count {text : List Char} {offset : Nat} (h : offset ≤ byteLength text) :
    (ofText text).position offset =
      { line := 1 + ((bytesOf text).take offset).count newlineByte
        column := 1 + (((bytesOf text).take offset).rtakeWhile (· != newlineByte)).length } := by
  have hstarts : (ofText text).starts = (bytesOf text).findIdxs (· == newlineByte) 1 :=
    startsFrom_eq_findIdxs 0 text
  have hlength : ((bytesOf text).take offset).length = offset := by
    rw [List.length_take, length_bytesOf, Nat.min_eq_left h]
  obtain ⟨-, hcolumn⟩ := length_sub_getLastD_findIdxs (· == newlineByte) ((bytesOf text).take offset)
  rw [hlength] at hcolumn
  simp only [position, hstarts, takeWhile_findIdxs, List.length_findIdxs, hcolumn]
  rw [Nat.add_comm 1, Nat.add_comm 1]
  rfl

/-- A later offset is further down, or further right on the same line. -/
theorem position_before (lines : LineIndex) {offset later : Nat} (h : offset < later) :
    (lines.position offset).Before (lines.position later) := by
  have hagain : (lines.starts.takeWhile (· ≤ later)).takeWhile (· ≤ offset) =
      lines.starts.takeWhile (· ≤ offset) := by
    rw [List.takeWhile_takeWhile]
    congr 1
    funext start
    simp only [decide_eq_true_eq, decide_eq_decide]
    omega
  have hle := lines.getLastD_started_le offset
  obtain ⟨more, hmore⟩ := List.takeWhile_prefix (l := lines.starts.takeWhile (· ≤ later)) (· ≤ offset)
  rw [hagain] at hmore
  simp only [Position.Before, position, ← hmore]
  cases more with
  | nil =>
    rw [List.append_nil]
    omega
  | cons start more =>
    rw [List.length_append, List.length_cons]
    omega

/-- **Line and column of every offset.** The line of an offset in a text is one more than the newline
bytes before it, and its column one more than the bytes behind the last of these. Halving the starts of
lines finds this line, which starts at or before the offset. Later offsets have later positions, so no
two have the same. -/
theorem position_counts (source : String) :
    (∀ offset ≤ source.utf8ByteSize, (ofText source.toList).position offset =
      { line := 1 + (source.toByteArray.data.toList.take offset).count newlineByte
        column := 1 +
          ((source.toByteArray.data.toList.take offset).rtakeWhile (· != newlineByte)).length }) ∧
    (∀ offset, (ofText source.toList).position offset =
        { line := (ofText source.toList).lineAt offset + 1
          column := offset - (ofText source.toList).lineStart offset + 1 } ∧
      (ofText source.toList).lineStart offset ≤ offset) ∧
    (∀ offset later, offset < later →
      ((ofText source.toList).position offset).Before ((ofText source.toList).position later)) ∧
    (ofText source.toList).position.Injective := by
  refine ⟨fun offset h => ?_, position_eq_search _, fun offset later => position_before _, ?_⟩
  · rw [← bytesOf_toList]
    exact position_eq_count (by rwa [byteLength_toList])
  · intro offset other hsame
    rcases Nat.lt_trichotomy offset other with hlt | rfl | hlt
    · exact absurd hsame (position_before _ hlt).ne
    · rfl
    · exact absurd hsame.symm (position_before _ hlt).ne

/-- The second byte of a character, on the second line, and the end of the text. -/
theorem position_counts_inside :
    let source := "a\né\n"
    let lines := ofText source.toList
    3 ≤ source.utf8ByteSize ∧ lines.position 3 = { line := 2, column := 2 } ∧
      lines.position 3 =
        { line := 1 + (source.toByteArray.data.toList.take 3).count newlineByte
          column := 1 +
            ((source.toByteArray.data.toList.take 3).rtakeWhile (· != newlineByte)).length } ∧
      lines.lineStart 3 = 2 ∧ lines.lineStart 3 ≤ 3 ∧ 3 < source.utf8ByteSize ∧
      (lines.position 3).Before (lines.position source.utf8ByteSize) := by
  intro source lines
  have hinside : 3 < source.utf8ByteSize := by decide +kernel
  have hplace : lines.position 3 = { line := 2, column := 2 } ∧ lines.lineStart 3 = 2 := by
    decide +kernel
  obtain ⟨hcounts, hsearch, hbefore, -⟩ := position_counts source
  exact ⟨Nat.le_of_lt hinside, hplace.1, hcounts 3 (Nat.le_of_lt hinside), hplace.2, (hsearch 3).2,
    hinside, hbefore 3 source.utf8ByteSize hinside⟩

end LineIndex

end Interop
