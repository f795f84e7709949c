import Interop.Text.Position
import Mathlib.Data.List.TakeWhile

/-! Positions in a text that is made of two. What comes after a part of a text does not change the
positions inside it, and after a line break all positions are those of the text that begins there,
moved by whole lines. -/

namespace Interop

theorem byteLength_ofList (text : List Char) :
    byteLength text = (String.ofList text).utf8ByteSize := by
  induction text with
  | nil => simp [String.ofList_nil]
  | cons c cs ih =>
    have hsplit : String.ofList (c :: cs) = String.singleton c ++ String.ofList cs := by
      rw [String.singleton_eq_ofList, ← String.ofList_append]
      rfl
    rw [byteLength_cons, ih, hsplit, String.utf8ByteSize_append, String.utf8ByteSize_singleton]

@[simp] theorem byteLength_toList (source : String) :
    byteLength source.toList = source.utf8ByteSize := by
  rw [byteLength_ofList, String.ofList_toList]

theorem byteLength_eq_zero {text : List Char} : byteLength text = 0 ↔ text = [] := by
  cases text with
  | nil => simp
  | cons c cs =>
    have := c.utf8Size_pos
    simp only [byteLength_cons, reduceCtorEq, iff_false]
    omega

/-- A run is all of the front when the front consists of what belongs to it and none comes behind. -/
theorem takeWhile_append_eq_left_iff {α : Type} {p : α → Bool} {front more : List α} :
    (front ++ more).takeWhile p = front ↔
      (∀ a ∈ front, p a = true) ∧ ∀ a ∈ more.head?, p a = false := by
  constructor
  · intro h
    have hfront : ∀ a ∈ front, p a = true := fun a ha => List.mem_takeWhile_imp (h ▸ ha)
    refine ⟨hfront, ?_⟩
    rw [List.takeWhile_append_of_pos hfront, List.append_right_eq_self] at h
    intro a ha
    cases more with
    | nil => cases ha
    | cons b more =>
      cases ha
      cases hp : p a with
      | false => rfl
      | true => simp [hp] at h
  · rintro ⟨hfront, hmore⟩
    rw [List.takeWhile_append_of_pos hfront, List.append_right_eq_self]
    cases more with
    | nil => rfl
    | cons b more => simp [hmore b rfl]

/-- Moves a position down by whole lines. -/
def Position.down (lines : Nat) (position : Position) : Position :=
  { position with line := position.line + lines }

/-- Moves a position on along its line. -/
def Position.right (bytes : Nat) (position : Position) : Position :=
  { position with column := position.column + bytes }

namespace LineIndex

/-! ## Starts of lines -/

theorem startsFrom_append (offset : Nat) (a b : List Char) :
    startsFrom offset (a ++ b) = startsFrom offset a ++ startsFrom (offset + byteLength a) b := by
  induction a generalizing offset with
  | nil => simp [startsFrom]
  | cons c cs ih =>
    simp only [List.cons_append, startsFrom, ih, byteLength_cons, ← Nat.add_assoc]
    split <;> rfl

theorem startsFrom_add (offset distance : Nat) (text : List Char) :
    startsFrom (offset + distance) text = (startsFrom offset text).map (· + distance) := by
  induction text generalizing offset with
  | nil => rfl
  | cons c cs ih =>
    have hnext : offset + distance + c.utf8Size = offset + c.utf8Size + distance := by omega
    simp only [startsFrom, hnext, ih]
    split <;> simp

theorem bounds_of_mem_startsFrom {offset start : Nat} {text : List Char}
    (h : start ∈ startsFrom offset text) : offset < start ∧ start ≤ offset + byteLength text := by
  induction text generalizing offset with
  | nil => cases h
  | cons c cs ih =>
    have hpos := c.utf8Size_pos
    have htail : start ∈ startsFrom (offset + c.utf8Size) cs →
        offset < start ∧ start ≤ offset + byteLength (c :: cs) := by
      intro hmem
      have := ih hmem
      simp only [byteLength_cons]
      omega
    simp only [startsFrom] at h
    split at h
    · rcases List.mem_cons.mp h with rfl | hmem
      · simp only [byteLength_cons]
        omega
      · exact htail hmem
    · exact htail h

@[simp] theorem length_startsFrom (offset : Nat) (text : List Char) :
    (startsFrom offset text).length = text.count '\n' := by
  induction text generalizing offset with
  | nil => rfl
  | cons c cs ih =>
    simp only [startsFrom, List.count_cons]
    split <;> simp_all

theorem getLastD_startsFrom_le (text : List Char) :
    (startsFrom 0 text).getLastD 0 ≤ byteLength text := by
  rw [List.getLastD_eq_getLast?]
  cases h : (startsFrom 0 text).getLast? with
  | none => exact Nat.zero_le _
  | some start =>
    have := (bounds_of_mem_startsFrom (List.mem_of_getLast? h)).2
    simp only [Option.getD_some]
    omega

theorem getLastD_append_map_add (first rest : List Nat) (distance : Nat) :
    (first ++ distance :: rest.map (· + distance)).getLastD 0 = rest.getLastD 0 + distance := by
  simp only [List.getLastD_eq_getLast?, List.getLast?_append, List.getLast?_cons,
    List.getLast?_map, Option.some_or, Option.getD_some]
  cases rest.getLast? <;> simp

/-! ## Positions -/

/-- What comes after a part of a text does not change the positions inside it. -/
theorem position_append_left {a : List Char} (b : List Char) {offset : Nat}
    (h : offset ≤ byteLength a) :
    (ofText (a ++ b)).position offset = (ofText a).position offset := by
  have hlater : (startsFrom (0 + byteLength a) b).takeWhile (· ≤ offset) = [] := by
    rw [List.takeWhile_eq_nil_iff]
    intro hpos
    have := (bounds_of_mem_startsFrom (List.get_mem _ ⟨0, hpos⟩)).1
    simp only [decide_eq_true_eq]
    omega
  have hbefore : (startsFrom 0 (a ++ b)).takeWhile (· ≤ offset) =
      (startsFrom 0 a).takeWhile (· ≤ offset) := by
    rw [startsFrom_append, List.takeWhile_append, hlater, List.append_nil]
    split
    · rename_i hall
      exact ((List.takeWhile_prefix _).eq_of_length hall).symm
    · rfl
  simp only [position, ofText, hbefore]

/-- At the end of a text every line has started. -/
theorem position_byteLength (text : List Char) :
    (ofText text).position (byteLength text) =
      { line := text.count '\n' + 1
        column := byteLength text - (startsFrom 0 text).getLastD 0 + 1 } := by
  have hall : (startsFrom 0 text).takeWhile (· ≤ byteLength text) = startsFrom 0 text := by
    rw [List.takeWhile_eq_self_iff]
    intro start hstart
    have := (bounds_of_mem_startsFrom hstart).2
    simp only [decide_eq_true_eq]
    omega
  simp only [position, ofText, hall, length_startsFrom]

/-- A character that is no newline takes as many columns as bytes. -/
theorem position_next (before after : List Char) {c : Char} (hc : c ≠ '\n') :
    (ofText (before ++ c :: after)).position (byteLength before + c.utf8Size) =
      ((ofText (before ++ c :: after)).position (byteLength before)).right c.utf8Size := by
  have htext : before ++ c :: after = (before ++ [c]) ++ after := by simp
  have hlength : byteLength (before ++ [c]) = byteLength before + c.utf8Size := by simp
  have hnext : (ofText (before ++ c :: after)).position (byteLength before + c.utf8Size) =
      (ofText (before ++ [c])).position (byteLength (before ++ [c])) := by
    rw [htext, position_append_left _ (by omega), hlength]
  have hstarts : startsFrom 0 (before ++ [c]) = startsFrom 0 before := by
    simp [startsFrom_append, startsFrom, hc]
  have hcount : (before ++ [c]).count '\n' = before.count '\n' := by simp [hc]
  have hlast := getLastD_startsFrom_le before
  have hcolumn : byteLength before + c.utf8Size - (startsFrom 0 before).getLastD 0 + 1 =
      byteLength before - (startsFrom 0 before).getLastD 0 + 1 + c.utf8Size := by omega
  rw [hnext, position_append_left _ (Nat.le_refl _), position_byteLength, position_byteLength,
    hlength, hstarts, hcount, hcolumn]
  rfl

/-- After a line break the positions are those of the text that begins there, further down. -/
theorem position_after_break (a b : List Char) (offset : Nat) :
    (ofText (a ++ '\n' :: b)).position (byteLength a + 1 + offset) =
      ((ofText b).position offset).down (a.count '\n' + 1) := by
  have hnewline : '\n'.utf8Size = 1 := rfl
  have hstarts : startsFrom 0 (a ++ '\n' :: b) =
      startsFrom 0 a ++ (byteLength a + 1) :: (startsFrom 0 b).map (· + (byteLength a + 1)) := by
    have hrest := startsFrom_add 0 (byteLength a + 1) b
    simp only [Nat.zero_add] at hrest
    simp [startsFrom_append, startsFrom, hnewline, hrest]
  have hbefore : (startsFrom 0 (a ++ '\n' :: b)).takeWhile (· ≤ byteLength a + 1 + offset) =
      startsFrom 0 a ++ (byteLength a + 1) ::
        ((startsFrom 0 b).takeWhile (· ≤ offset)).map (· + (byteLength a + 1)) := by
    have hfirst : ∀ start ∈ startsFrom 0 a, decide (start ≤ byteLength a + 1 + offset) = true := by
      intro start hstart
      have := (bounds_of_mem_startsFrom hstart).2
      simp only [decide_eq_true_eq]
      omega
    have hsame : ((fun start => decide (start ≤ byteLength a + 1 + offset)) ∘
        fun start => start + (byteLength a + 1)) = fun start => decide (start ≤ offset) := by
      funext start
      simp only [Function.comp_apply, decide_eq_decide]
      omega
    rw [hstarts, List.takeWhile_append_of_pos hfirst, List.takeWhile_cons_of_pos (by simp),
      List.takeWhile_map, hsame]
  have hlength : ∀ started : List Nat,
      (startsFrom 0 a ++ (byteLength a + 1) :: started.map (· + (byteLength a + 1))).length + 1 =
        started.length + 1 + (a.count '\n' + 1) := by
    intro started
    simp only [List.length_append, List.length_cons, List.length_map, length_startsFrom]
    omega
  simp only [position, ofText, Position.down, hbefore, getLastD_append_map_add, hlength]
  congr 1
  omega

end LineIndex

end Interop
