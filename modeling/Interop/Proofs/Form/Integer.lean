import Interop.Proofs.Decimal.Numeral
import Interop.Proofs.Form.Datum

/-! Integer literals. An atom in the shape of an integer is read as the integer that it writes, if 64
bits hold that, and is refused otherwise. Two kinds of hexadecimal literals are the exceptions: the
digits behind the mark may bring a sign of their own, and the least integer is refused. -/

namespace Interop

variable {text rest marked digits : List Char} {value : Int} {n : Nat}

/-! ## What a literal writes -/

/-- A hexadecimal mark, in either case, and what follows it. -/
def HexMarked (text marked : List Char) : Prop :=
  text = '0' :: 'x' :: marked ∨ text = '0' :: 'X' :: marked

/-- The text writes a number without a sign, in decimal or behind a hexadecimal mark. -/
inductive IsMagnitude (text : List Char) (n : Nat) : Prop
  | decimal : IsNumeral 10 text n → IsMagnitude text n
  | hexadecimal (digits : List Char) : HexMarked text digits → IsNumeral 16 digits n →
      IsMagnitude text n

/-- The text writes an integer: a number behind at most one sign. -/
def IsInteger (text : List Char) (value : Int) : Prop :=
  ∃ unit rest, Signed text unit rest ∧ ∃ n, IsMagnitude rest n ∧ value = unit * n

/-- The text has a hexadecimal mark behind at most one sign, or else neither a point nor an
exponent. -/
def IntegerShaped (text : List Char) : Prop :=
  (∃ unit rest, Signed text unit rest ∧ ∃ marked, HexMarked rest marked) ∨
    ∀ c ∈ text, c ≠ '.' ∧ c ≠ 'e' ∧ c ≠ 'E'

/-- The atom is read as the integer that it writes, and refused if it writes none that fits. -/
def ReadExactly (text : List Char) : Prop :=
  (∀ value, atomDatum text = .ok (.int value) ↔ IsInteger text value ∧ Fits64 value) ∧
    ((¬ ∃ value, IsInteger text value ∧ Fits64 value) →
      atomDatum text = .error (.invalidNumber (String.ofList text)))

/-! ## The exceptions -/

/-- Behind the mark the digits have a sign of their own, and the value is what both signs make of
them, wrapped around where it leaves the range of integers. -/
def TwiceSigned (text : List Char) (value : Int) : Prop :=
  ∃ unit rest, Signed text unit rest ∧ ∃ marked inner, HexMarked rest marked ∧ ¬ Unsigned marked ∧
    IsSignedNumeral 16 marked inner ∧ Fits64 inner ∧ value = (unit * inner).bmod (2 ^ 64)

/-- The least integer in hexadecimal. -/
def LeastHexadecimal (text : List Char) : Prop :=
  ∃ unit rest, Signed text unit rest ∧ unit = -1 ∧ ∃ digits, HexMarked rest digits ∧
    IsNumeral 16 digits (2 ^ 63)

/-- The least integer in hexadecimal with its sign behind the mark, and another minus sign in front. -/
def NegatesLeast (text : List Char) : Prop :=
  ∃ unit rest, Signed text unit rest ∧ unit = -1 ∧ ∃ marked, HexMarked rest marked ∧
    IsSignedNumeral 16 marked (-2 ^ 63)

/-! ## Behind the sign -/

theorem hexadecimal?_eq_some_iff : hexadecimal? text = some marked ↔ HexMarked text marked := by
  unfold hexadecimal? HexMarked
  split <;> simp_all

theorem HexMarked.ne_none (h : HexMarked text marked) : hexadecimal? text ≠ none := by
  rw [hexadecimal?_eq_some_iff.mpr h]
  exact Option.some_ne_none _

theorem HexMarked.unsigned (h : HexMarked text marked) : Unsigned text := by
  intro c hc
  rcases h with rfl | rfl <;> cases hc <;> decide

theorem HexMarked.not_isNumeral (h : HexMarked text marked) : ¬ IsNumeral 10 text n := by
  intro hdigits
  rcases h with rfl | rfl
  · exact hdigits.not_mem (c := 'x') (by decide) (by decide) (by simp)
  · exact hdigits.not_mem (c := 'X') (by decide) (by decide) (by simp)

theorem HexMarked.unique (h : HexMarked text marked) (h' : HexMarked text digits) :
    marked = digits := by
  rw [← hexadecimal?_eq_some_iff] at h h'
  exact Option.some.inj (h.symm.trans h')

theorem IsMagnitude.unsigned (h : IsMagnitude text n) : Unsigned text := by
  cases h with
  | decimal hdigits => exact hdigits.unsigned (by decide)
  | hexadecimal digits hmarked => exact hmarked.unsigned

theorem HexMarked.isMagnitude_iff (h : HexMarked text marked) :
    IsMagnitude text n ↔ IsNumeral 16 marked n := by
  constructor
  · rintro (hdigits | ⟨digits, hdigits, hn⟩)
    · exact absurd hdigits h.not_isNumeral
    · rwa [h.unique hdigits]
  · exact .hexadecimal marked h

theorem isMagnitude_iff_of_plain (h : hexadecimal? text = none) :
    IsMagnitude text n ↔ IsNumeral 10 text n := by
  constructor
  · rintro (hdigits | ⟨digits, hdigits, hn⟩)
    · exact hdigits
    · exact absurd h hdigits.ne_none
  · exact .decimal

/-! ## With the sign -/

theorem isInteger_iff : IsInteger text value ↔
    ∃ n, IsMagnitude (splitSign text).2 n ∧ value = signUnit (splitSign text).1 * n :=
  exists_signed_iff (P := fun unit rest => ∃ n, IsMagnitude rest n ∧ value = unit * n)
    fun _ _ ⟨_, hmagnitude, _⟩ => hmagnitude.unsigned

theorem twiceSigned_iff : TwiceSigned text value ↔
    ∃ marked inner, HexMarked (splitSign text).2 marked ∧ ¬ Unsigned marked ∧
      IsSignedNumeral 16 marked inner ∧ Fits64 inner ∧
        value = (signUnit (splitSign text).1 * inner).bmod (2 ^ 64) :=
  exists_signed_iff (P := fun unit rest => ∃ marked inner, HexMarked rest marked ∧
    ¬ Unsigned marked ∧ IsSignedNumeral 16 marked inner ∧ Fits64 inner ∧
      value = (unit * inner).bmod (2 ^ 64))
    fun _ _ ⟨_, _, hmarked, _⟩ => hmarked.unsigned

theorem leastHexadecimal_iff : LeastHexadecimal text ↔
    signUnit (splitSign text).1 = -1 ∧ ∃ digits, HexMarked (splitSign text).2 digits ∧
      IsNumeral 16 digits (2 ^ 63) :=
  exists_signed_iff (P := fun unit rest => unit = -1 ∧ ∃ digits, HexMarked rest digits ∧
    IsNumeral 16 digits (2 ^ 63)) fun _ _ ⟨_, _, hmarked, _⟩ => hmarked.unsigned

theorem negatesLeast_iff : NegatesLeast text ↔
    signUnit (splitSign text).1 = -1 ∧ ∃ marked, HexMarked (splitSign text).2 marked ∧
      IsSignedNumeral 16 marked (-2 ^ 63) :=
  exists_signed_iff (P := fun unit rest => unit = -1 ∧ ∃ marked, HexMarked rest marked ∧
    IsSignedNumeral 16 marked (-2 ^ 63)) fun _ _ ⟨_, _, hmarked, _⟩ => hmarked.unsigned

theorem NegatesLeast.twiceSigned (h : NegatesLeast text) : TwiceSigned text (-2 ^ 63) := by
  obtain ⟨unit, rest, hsign, rfl, marked, hmarked, hleast⟩ := h
  refine ⟨-1, rest, hsign, marked, -2 ^ 63, hmarked, fun hunsigned => ?_, hleast, by decide,
    by decide⟩
  obtain ⟨n, -, hn⟩ := (isSignedNumeral_iff_of_unsigned (le_refl 16) hunsigned).mp hleast
  omega

theorem not_twiceSigned_of_plain (h : hexadecimal? (splitSign text).2 = none) :
    ¬ TwiceSigned text value := by
  rw [twiceSigned_iff]
  rintro ⟨marked, -, hmarked, -⟩
  exact hmarked.ne_none h

theorem not_leastHexadecimal_of_plain (h : hexadecimal? (splitSign text).2 = none) :
    ¬ LeastHexadecimal text := by
  rw [leastHexadecimal_iff]
  rintro ⟨-, digits, hmarked, -⟩
  exact hmarked.ne_none h

/-- A literal with two signs writes no integer. -/
theorem TwiceSigned.not_isInteger {other : Int} (h : TwiceSigned text value) :
    ¬ IsInteger text other := by
  obtain ⟨marked, -, hmarked, hsigned, -⟩ := twiceSigned_iff.mp h
  rw [isInteger_iff]
  rintro ⟨n, hmagnitude, -⟩
  exact hsigned ((hmarked.isMagnitude_iff.mp hmagnitude).unsigned (by decide))

theorem LeastHexadecimal.isInteger (h : LeastHexadecimal text) : IsInteger text (-2 ^ 63) := by
  obtain ⟨unit, rest, hsign, rfl, digits, hmarked, hdigits⟩ := h
  exact ⟨-1, rest, hsign, 2 ^ 63, .hexadecimal digits hmarked hdigits, by norm_num⟩

/-! ## What is read -/

/-- What a literal is read as, by what it writes. -/
def ReadAs (text : List Char) (value : Int) : Prop :=
  IsInteger text value ∧ Fits64 value ∧ ¬ LeastHexadecimal text ∨ TwiceSigned text value

/-- Hexadecimal digits have to fit before the sign in front of the mark is looked at. That makes a
difference for the least integer only. -/
theorem fits64_before_sign (negative : Bool) (n : Nat) :
    Fits64 n ↔ Fits64 (signUnit negative * n) ∧ ¬ (signUnit negative = -1 ∧ n = 2 ^ 63) := by
  cases negative
  · simp [Fits64, signUnit]
  · simp [Fits64, signUnit]
    omega

theorem readAs_iff_of_unsigned (h : HexMarked (splitSign text).2 marked)
    (hmarked : Unsigned marked) :
    ReadAs text value ↔ ∃ inner, IsSignedNumeral 16 marked inner ∧ Fits64 inner ∧
      value = (signUnit (splitSign text).1 * inner).bmod (2 ^ 64) := by
  have hnotTwice : ¬ TwiceSigned text value := by
    rw [twiceSigned_iff]
    rintro ⟨other, -, hother, hsigned, -⟩
    exact hsigned (h.unique hother ▸ hmarked)
  simp only [ReadAs, hnotTwice, or_false, isInteger_iff, h.isMagnitude_iff,
    isSignedNumeral_iff_of_unsigned (le_refl 16) hmarked]
  constructor
  · rintro ⟨⟨n, hn, rfl⟩, hfits, hleast⟩
    refine ⟨n, ⟨n, hn, rfl⟩, (fits64_before_sign _ n).mpr ⟨hfits, ?_⟩,
      (bmod_eq_of_fits64 hfits).symm⟩
    rintro ⟨hminus, rfl⟩
    exact hleast (leastHexadecimal_iff.mpr ⟨hminus, marked, h, hn⟩)
  · rintro ⟨_, ⟨n, hn, rfl⟩, hbefore, rfl⟩
    obtain ⟨hfits, hleast⟩ := (fits64_before_sign (splitSign text).1 n).mp hbefore
    rw [bmod_eq_of_fits64 hfits]
    refine ⟨⟨n, hn, rfl⟩, hfits, fun hother => hleast ?_⟩
    obtain ⟨hminus, digits, hdigits, hmost⟩ := leastHexadecimal_iff.mp hother
    rw [← h.unique hdigits] at hmost
    exact ⟨hminus, hn.unique (by decide) hmost⟩

theorem readAs_iff_of_signed (h : HexMarked (splitSign text).2 marked)
    (hmarked : ¬ Unsigned marked) :
    ReadAs text value ↔ ∃ inner, IsSignedNumeral 16 marked inner ∧ Fits64 inner ∧
      value = (signUnit (splitSign text).1 * inner).bmod (2 ^ 64) := by
  have hnone : ¬ IsInteger text value := by
    rw [isInteger_iff]
    rintro ⟨n, hmagnitude, -⟩
    exact hmarked ((h.isMagnitude_iff.mp hmagnitude).unsigned (by decide))
  simp only [ReadAs, hnone, false_and, false_or, twiceSigned_iff]
  constructor
  · rintro ⟨other, inner, hother, -, hinner, hrest⟩
    rw [← h.unique hother] at hinner
    exact ⟨inner, hinner, hrest⟩
  · rintro ⟨inner, hinner, hrest⟩
    exact ⟨marked, inner, h, hmarked, hinner, hrest⟩

theorem readAs_iff_of_hexMarked (h : HexMarked (splitSign text).2 marked) :
    ReadAs text value ↔ ∃ inner, IsSignedNumeral 16 marked inner ∧ Fits64 inner ∧
      value = (signUnit (splitSign text).1 * inner).bmod (2 ^ 64) := by
  by_cases hmarked : Unsigned marked
  · exact readAs_iff_of_unsigned h hmarked
  · exact readAs_iff_of_signed h hmarked

theorem readAs_iff_of_plain (h : hexadecimal? (splitSign text).2 = none) :
    ReadAs text value ↔ IsSignedNumeral 10 text value ∧ Fits64 value := by
  rw [isSignedNumeral_iff (by decide), ReadAs, isInteger_iff]
  simp only [isMagnitude_iff_of_plain h, not_twiceSigned_of_plain h, not_leastHexadecimal_of_plain h,
    not_false_eq_true, and_true, or_false]

/-- Without a hexadecimal mark, what has the shape of an integer has neither a point nor an
exponent. -/
theorem IntegerShaped.not_any (h : IntegerShaped text)
    (hplain : hexadecimal? (splitSign text).2 = none) :
    ((splitSign text).2.any fun c => c = '.' || c = 'e' || c = 'E') = false := by
  rcases h with hmarked | hnone
  · rw [exists_signed_iff fun _ _ ⟨_, hmarked⟩ => HexMarked.unsigned hmarked] at hmarked
    obtain ⟨marked, hmarked⟩ := hmarked
    exact absurd hplain hmarked.ne_none
  · rw [List.any_eq_false]
    intro c hc
    simpa [and_assoc] using hnone c (splitSign_subset text hc)

/-- An atom in the shape of an integer is no other number. -/
theorem IntegerShaped.number?_eq (h : IntegerShaped text) :
    ∃ integer : Option Int, number? text = integer.map .int ∧
      ∀ value, integer = some value ↔ ReadAs text value := by
  cases hhex : hexadecimal? (splitSign text).2 with
  | some marked =>
    refine ⟨_, by simp only [number?, hhex]; rfl, fun value => ?_⟩
    rw [Option.map_eq_some_iff, readAs_iff_of_hexMarked (hexadecimal?_eq_some_iff.mp hhex)]
    simp only [signedLiteral?_eq_some_iff (le_refl 16)]
    constructor
    · rintro ⟨inner, ⟨hinner, hfits⟩, rfl⟩
      exact ⟨inner, hinner, hfits, ite_wrappingNeg_eq _ hfits⟩
    · rintro ⟨inner, hinner, hfits, rfl⟩
      exact ⟨inner, ⟨hinner, hfits⟩, ite_wrappingNeg_eq _ hfits⟩
  | none =>
    refine ⟨signedLiteral? 10 text, ?_, fun value => ?_⟩
    · simp only [number?, hhex, h.not_any hhex, Bool.false_eq_true, if_false]
    · rw [signedLiteral?_eq_some_iff (by decide), readAs_iff_of_plain hhex]

/-- **Where the sign wraps around.** The minus sign in front of a hexadecimal number leaves the range of
integers for the least integer only, and for that only with its own sign behind the mark. -/
theorem negatesLeast_iff_wraps : NegatesLeast text ↔
    (splitSign text).1 = true ∧ ∃ marked inner, hexadecimal? (splitSign text).2 = some marked ∧
      signedLiteral? 16 marked = some inner ∧ wrappingNeg inner ≠ -inner := by
  have hminus : signUnit (splitSign text).1 = -1 ↔ (splitSign text).1 = true := by
    cases (splitSign text).1 <;> decide
  rw [negatesLeast_iff, hminus]
  simp only [hexadecimal?_eq_some_iff, signedLiteral?_eq_some_iff (le_refl 16)]
  refine and_congr_right fun _ => exists_congr fun marked => ?_
  constructor
  · rintro ⟨hmarked, hleast⟩
    have hfits : Fits64 (-2 ^ 63) := by decide
    exact ⟨-2 ^ 63, hmarked, ⟨hleast, hfits⟩, fun hneg => (wrappingNeg_eq_neg_iff hfits).mp hneg rfl⟩
  · rintro ⟨inner, hmarked, ⟨hinner, hfits⟩, hwraps⟩
    obtain rfl : inner = -2 ^ 63 := by
      by_contra hother
      exact hwraps ((wrappingNeg_eq_neg_iff hfits).mpr hother)
    exact ⟨hmarked, hinner⟩

/-- Such a literal is read as the least integer, its negation wrapped around. -/
theorem NegatesLeast.number?_eq (h : NegatesLeast text) : number? text = some (.int (-2 ^ 63)) := by
  have hshape : IntegerShaped text := by
    obtain ⟨unit, rest, hsign, -, marked, hmarked, -⟩ := h
    exact .inl ⟨unit, rest, hsign, marked, hmarked⟩
  obtain ⟨integer, hnumber, hinteger⟩ := hshape.number?_eq
  rw [hnumber, (hinteger (-2 ^ 63)).mpr (.inr h.twiceSigned)]
  rfl

example : number? "-0x-8000000000000000".toList = some (.int (-2 ^ 63)) := by rfl

theorem readExactly_iff
    (hread : ∀ value, atomDatum text = .ok (.int value) ↔ ReadAs text value)
    (hrefused : (∀ value, atomDatum text ≠ .ok (.int value)) →
      atomDatum text = .error (.invalidNumber (String.ofList text))) :
    ReadExactly text ↔ (¬ ∃ value, TwiceSigned text value) ∧ ¬ LeastHexadecimal text := by
  simp only [ReadExactly, hread] at hrefused ⊢
  constructor
  · rintro ⟨hexact, -⟩
    constructor
    · rintro ⟨value, htwice⟩
      exact htwice.not_isInteger ((hexact value).mp (.inr htwice)).1
    · intro hleast
      have hinteger := hleast.isInteger
      have hread := (hexact (-2 ^ 63)).mpr ⟨hinteger, by decide⟩
      rcases hread with ⟨-, -, hnot⟩ | htwice
      · exact hnot hleast
      · exact htwice.not_isInteger hinteger
  · rintro ⟨htwice, hleast⟩
    have hsame : ∀ value, ReadAs text value ↔ IsInteger text value ∧ Fits64 value := by
      intro value
      simp only [ReadAs, hleast, not_false_eq_true, and_true]
      exact or_iff_left fun hvalue => htwice ⟨value, hvalue⟩
    refine ⟨hsame, fun hnone => hrefused fun value hvalue => hnone ⟨value, ?_⟩⟩
    exact (hsame value).mp ((hread value).mp hvalue)

/-- **Integer literals are read exactly**, save for two kinds in hexadecimal: those that are read
with a second sign, and the least integer. What two signs make of a number wraps around where it leaves
the range of integers. An atom that is not read as an integer is refused as an invalid number. -/
theorem integer_read_iff (hnumeric : looksNumeric text = true) (hshape : IntegerShaped text) :
    (ReadExactly text ↔ (¬ ∃ value, TwiceSigned text value) ∧ ¬ LeastHexadecimal text) ∧
    (∀ value, atomDatum text = .ok (.int value) ↔
      IsInteger text value ∧ Fits64 value ∧ ¬ LeastHexadecimal text ∨ TwiceSigned text value) ∧
    ((∀ value, atomDatum text ≠ .ok (.int value)) →
      atomDatum text = .error (.invalidNumber (String.ofList text))) := by
  obtain ⟨integer, hnumber, hinteger⟩ := hshape.number?_eq
  have hread : ∀ value, atomDatum text = .ok (.int value) ↔ ReadAs text value := by
    intro value
    rw [atomDatum_of_looksNumeric hnumeric, hnumber, ← hinteger]
    cases integer <;> simp
  have hrefused : (∀ value, atomDatum text ≠ .ok (.int value)) →
      atomDatum text = .error (.invalidNumber (String.ofList text)) := by
    intro hnone
    rw [atomDatum_of_looksNumeric hnumeric, hnumber] at hnone ⊢
    cases integer with
    | none => rfl
    | some value => exact absurd rfl (hnone value)
  exact ⟨readExactly_iff hread hrefused, hread, hrefused⟩

/-- Digits of either kind are read, an `E` among them. -/
theorem integer_read_iff_hexadecimal :
    let text := "-0x1E".toList
    looksNumeric text = true ∧ IntegerShaped text ∧ IsInteger text (-30) ∧ ReadExactly text ∧
      atomDatum text = .ok (.int (-30)) := by
  intro text
  have hmarked : HexMarked ['0', 'x', '1', 'E'] ['1', 'E'] := .inl rfl
  have hsigned : Signed text (-1) ['0', 'x', '1', 'E'] := .minus _
  have hdigits : IsNumeral 16 ['1', 'E'] 30 := (isNumeral_iff (le_refl 16)).mpr (by decide)
  have hnumeric : looksNumeric text = true := by decide
  have hshape : IntegerShaped text := .inl ⟨_, _, hsigned, _, hmarked⟩
  have hinteger : IsInteger text (-30) :=
    ⟨_, _, hsigned, 30, .hexadecimal _ hmarked hdigits, by decide⟩
  have htwice : ¬ ∃ value, TwiceSigned text value := fun ⟨_, h⟩ => h.not_isInteger hinteger
  have hleast : ¬ LeastHexadecimal text := by
    rw [leastHexadecimal_iff]
    rintro ⟨-, digits, hother, hmost⟩
    rw [← hmarked.unique hother] at hmost
    exact absurd (hdigits.unique (le_refl 16) hmost) (by decide)
  obtain ⟨hexact, hread, -⟩ := integer_read_iff hnumeric hshape
  exact ⟨hnumeric, hshape, hinteger, hexact.mpr ⟨htwice, hleast⟩,
    (hread (-30)).mpr (.inl ⟨hinteger, by decide, hleast⟩)⟩

/-- A sign behind the mark is read, and the least integer in hexadecimal is not. -/
theorem not_readExactly_signs :
    let second := "0x-5".toList
    let least := "-0x8000000000000000".toList
    (looksNumeric second = true ∧ IntegerShaped second ∧ atomDatum second = .ok (.int (-5)) ∧
        ¬ ReadExactly second) ∧
      looksNumeric least = true ∧ IntegerShaped least ∧ IsInteger least (-2 ^ 63) ∧
        ¬ ReadExactly least := by
  intro second least
  have hsecond : HexMarked second ['-', '5'] := .inl rfl
  have hfive : IsSignedNumeral 16 ['-', '5'] (-5) :=
    ⟨_, _, .minus _, 5, (isNumeral_iff (le_refl 16)).mpr (by decide), by decide⟩
  have htwice : TwiceSigned second (-5) :=
    ⟨1, second, .none _, _, -5, hsecond, fun h => (h _ rfl).2 rfl, hfive, by decide, by decide⟩
  have hread : atomDatum second = .ok (.int (-5)) := by decide
  have hleast : LeastHexadecimal least :=
    ⟨_, _, .minus _, rfl, _, .inl rfl, (isNumeral_iff (le_refl 16)).mpr (by decide)⟩
  have hrefused : (atomDatum least).isOk = false := by decide
  refine ⟨⟨by decide, .inl ⟨_, _, .none _, _, hsecond⟩, hread, fun hexact => ?_⟩, by decide,
    .inl ⟨_, _, .minus _, _, .inl rfl⟩, hleast.isInteger, fun hexact => ?_⟩
  · exact htwice.not_isInteger ((hexact.1 (-5)).mp hread).1
  · have hmost := (hexact.1 (-2 ^ 63)).mpr ⟨hleast.isInteger, by decide⟩
    rw [hmost] at hrefused
    cases hrefused

end Interop
