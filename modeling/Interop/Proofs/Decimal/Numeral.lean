import Interop.Decimal.Literal
import Interop.Proofs.Except
import Mathlib.Data.Nat.Digits.Defs
import Mathlib.Tactic.Ring

/-! Numerals and the numbers that they write. A numeral is a list of digits, each worth as many as
the radix has of the one after it. A literal with a sign is read exactly if it is a numeral behind at
most one sign and 64 bits hold its value. -/

namespace Interop

variable {radix n value : Nat} {c : Char} {text rest digits : List Char} {unit : Int}

/-! ## Digits -/

/-- The character is the digit of a value in a radix. Letters may be of either case. -/
structure IsDigit (radix : Nat) (c : Char) (value : Nat) : Prop where
  lt : value < radix
  eq : c = value.digitChar ∨ c = value.digitChar.toUpper

theorem digitValue?_eq_filter (hradix : radix ≤ 16) (c : Char) :
    digitValue? radix c = (digitValue? 16 c).filter (· < radix) := by
  unfold digitValue?
  grind

/-- All digits are among the first characters. -/
theorem toNat_lt_of_digitValue? (h : digitValue? 16 c = some value) : c.toNat < 128 := by
  by_contra hlarge
  have hafter : ∀ last : Char, last.toNat < 128 → ¬ c ≤ last := by
    intro last hlast hle
    have : c.toNat ≤ last.toNat := hle
    omega
  simp [digitValue?, hafter] at h

theorem digitValue?_eq_some_iff (hradix : radix ≤ 16) :
    digitValue? radix c = some value ↔ IsDigit radix c value := by
  have hread : ∀ value < 16, digitValue? 16 value.digitChar = some value ∧
      digitValue? 16 value.digitChar.toUpper = some value := by decide
  have hwritten : ∀ code < 128, ∀ value < 16, digitValue? 16 (Char.ofNat code) = some value →
      Char.ofNat code = value.digitChar ∨ Char.ofNat code = value.digitChar.toUpper := by
    decide +kernel
  rw [digitValue?_eq_filter hradix, Option.filter_eq_some_iff, decide_eq_true_eq]
  constructor
  · rintro ⟨hvalue, hlt⟩
    have hc := hwritten c.toNat (toNat_lt_of_digitValue? hvalue) value (by omega)
    rw [Char.ofNat_toNat] at hc
    exact ⟨hlt, hc hvalue⟩
  · rintro ⟨hlt, rfl | rfl⟩
    · exact ⟨(hread value (by omega)).1, hlt⟩
    · exact ⟨(hread value (by omega)).2, hlt⟩

/-! ## Numerals -/

/-- The characters are digits, at least one, and write the number in the radix. -/
def IsNumeral (radix : Nat) (digits : List Char) (n : Nat) : Prop :=
  digits ≠ [] ∧ ∃ values, List.Forall₂ (IsDigit radix) digits values ∧
    Nat.ofDigits radix values.reverse = n

theorem foldlM_digitValue?_eq_some_iff (hradix : radix ≤ 16) {start : Nat} :
    digits.foldlM (fun value c => (digitValue? radix c).map (radix * value + ·)) start = some n ↔
      ∃ values, List.Forall₂ (IsDigit radix) digits values ∧
        start * radix ^ values.length + Nat.ofDigits radix values.reverse = n := by
  induction digits generalizing start with
  | nil => simp
  | cons c digits ih =>
    have hstep (value : Nat) (values : List Nat) :
        (radix * start + value) * radix ^ values.length + Nat.ofDigits radix values.reverse =
          start * radix ^ (value :: values).length +
            Nat.ofDigits radix (value :: values).reverse := by
      rw [List.reverse_cons, Nat.ofDigits_append, Nat.ofDigits_singleton, List.length_reverse,
        List.length_cons]
      ring
    simp only [List.foldlM_cons, Option.bind_eq_bind, Option.bind_eq_some_iff,
      Option.map_eq_some_iff, digitValue?_eq_some_iff hradix, ih, List.forall₂_cons_left_iff]
    constructor
    · rintro ⟨_, ⟨value, hvalue, rfl⟩, values, hvalues, hsum⟩
      exact ⟨value :: values, ⟨value, values, hvalue, hvalues, rfl⟩, hstep value values ▸ hsum⟩
    · rintro ⟨_, ⟨value, values, hvalue, hvalues, rfl⟩, hsum⟩
      exact ⟨_, ⟨value, hvalue, rfl⟩, values, hvalues, (hstep value values).trans hsum⟩

theorem isNumeral_iff (hradix : radix ≤ 16) :
    IsNumeral radix digits n ↔ digits ≠ [] ∧ digitsValue? radix digits = some n := by
  rw [IsNumeral, digitsValue?, foldlM_digitValue?_eq_some_iff hradix]
  simp only [Nat.zero_mul, Nat.zero_add]

theorem IsNumeral.unique {n' : Nat} (hradix : radix ≤ 16) (h : IsNumeral radix digits n)
    (h' : IsNumeral radix digits n') : n = n' := by
  rw [isNumeral_iff hradix] at h h'
  exact Option.some.inj (h.2.symm.trans h'.2)

theorem IsNumeral.isDigit_of_mem (h : IsNumeral radix digits n) (hc : c ∈ digits) :
    ∃ value, IsDigit radix c value := by
  obtain ⟨-, values, hvalues, -⟩ := h
  obtain ⟨value, -, hdigit⟩ := exists_of_mem_forall₂ hvalues.flip hc
  exact ⟨value, hdigit⟩

theorem IsNumeral.not_mem (hradix : radix ≤ 16) (hc : digitValue? radix c = none)
    (h : IsNumeral radix digits n) : c ∉ digits := by
  intro hmem
  obtain ⟨value, hdigit⟩ := h.isDigit_of_mem hmem
  rw [← digitValue?_eq_some_iff hradix, hc] at hdigit
  cases hdigit

/-! ## Signs -/

/-- The text is a sign that stands for the unit, or none, and then the rest. -/
inductive Signed : List Char → Int → List Char → Prop
  | none (rest : List Char) : Signed rest 1 rest
  | plus (rest : List Char) : Signed ('+' :: rest) 1 rest
  | minus (rest : List Char) : Signed ('-' :: rest) (-1) rest

/-- The text does not begin with a sign. -/
def Unsigned (text : List Char) : Prop := ∀ c, text.head? = some c → c ≠ '+' ∧ c ≠ '-'

/-- What a flag for a minus sign stands for. -/
def signUnit (negative : Bool) : Int := if negative then -1 else 1

theorem signed_splitSign (text : List Char) :
    Signed text (signUnit (splitSign text).1) (splitSign text).2 := by
  unfold splitSign
  split
  · exact .minus _
  · exact .plus _
  · exact .none _

theorem splitSign_subset (text : List Char) : (splitSign text).2 ⊆ text := by
  unfold splitSign
  split
  · exact List.subset_cons_self _ _
  · exact List.subset_cons_self _ _
  · exact List.Subset.refl _

theorem splitSign_of_unsigned (h : Unsigned text) : splitSign text = (false, text) := by
  unfold splitSign
  split
  · exact absurd rfl (h _ rfl).2
  · exact absurd rfl (h _ rfl).1
  · rfl

/-- A text can be split into a sign and something without one in one way only. -/
theorem exists_signed_iff {P : Int → List Char → Prop}
    (hP : ∀ unit rest, P unit rest → Unsigned rest) :
    (∃ unit rest, Signed text unit rest ∧ P unit rest) ↔
      P (signUnit (splitSign text).1) (splitSign text).2 := by
  constructor
  · rintro ⟨unit, rest, hsign, h⟩
    cases hsign with
    | none =>
      rw [splitSign_of_unsigned (hP _ _ h)]
      exact h
    | plus => exact h
    | minus => exact h
  · intro h
    exact ⟨_, _, signed_splitSign text, h⟩

theorem IsNumeral.unsigned (hradix : radix ≤ 16) (h : IsNumeral radix digits n) :
    Unsigned digits := by
  have hno : ∀ sign, digitValue? 16 sign = none → sign ∉ digits := fun sign hsign =>
    h.not_mem hradix (by rw [digitValue?_eq_filter hradix, hsign, Option.filter_none])
  intro c hc
  have hmem : c ∈ digits := List.mem_of_mem_head? hc
  constructor
  · rintro rfl
    exact hno '+' (by decide) hmem
  · rintro rfl
    exact hno '-' (by decide) hmem

/-! ## Literals with a sign -/

/-- The value can be held by 64 bits. -/
def Fits64 (value : Int) : Prop := -2 ^ 63 ≤ value ∧ value < 2 ^ 63

instance (value : Int) : Decidable (Fits64 value) := inferInstanceAs (Decidable (_ ∧ _))

theorem isSigned64_iff {value : Int} : isSigned64 value = true ↔ Fits64 value := by
  simp only [isSigned64, Bool.and_eq_true, decide_eq_true_eq, Fits64]
  norm_num

theorem signUnit_mul (negative : Bool) (value : Int) :
    signUnit negative * value = if negative then -value else value := by
  cases negative <;> simp [signUnit]

theorem bmod_eq_of_fits64 {value : Int} (h : Fits64 value) : value.bmod (2 ^ 64) = value := by
  obtain ⟨hlow, hhigh⟩ := h
  exact Int.bmod_eq_of_le (by norm_num; omega) (by norm_num; omega)

/-- A sign in front of a value that fits, in arithmetic that wraps around. -/
theorem ite_wrappingNeg_eq (negative : Bool) {value : Int} (h : Fits64 value) :
    (if negative then wrappingNeg value else value) =
      (signUnit negative * value).bmod (2 ^ 64) := by
  rw [signUnit_mul]
  cases negative with
  | false => exact (bmod_eq_of_fits64 h).symm
  | true => rfl

/-- Negation wraps around for the least value only. -/
theorem wrappingNeg_eq_neg_iff {value : Int} (h : Fits64 value) :
    wrappingNeg value = -value ↔ value ≠ -2 ^ 63 := by
  constructor
  · rintro hneg rfl
    exact absurd hneg (by decide)
  · intro hleast
    refine bmod_eq_of_fits64 ?_
    simp only [Fits64] at h ⊢
    omega

/-- The text is a numeral behind at most one sign, and the value is what they write. -/
def IsSignedNumeral (radix : Nat) (text : List Char) (value : Int) : Prop :=
  ∃ unit digits, Signed text unit digits ∧ ∃ n, IsNumeral radix digits n ∧ value = unit * n

theorem isSignedNumeral_iff (hradix : radix ≤ 16) {value : Int} :
    IsSignedNumeral radix text value ↔
      ∃ n, IsNumeral radix (splitSign text).2 n ∧ value = signUnit (splitSign text).1 * n :=
  exists_signed_iff (P := fun unit digits => ∃ n, IsNumeral radix digits n ∧ value = unit * n)
    fun _ _ ⟨_, hdigits, _⟩ => hdigits.unsigned hradix

theorem isSignedNumeral_iff_of_unsigned (hradix : radix ≤ 16) (h : Unsigned text) {value : Int} :
    IsSignedNumeral radix text value ↔ ∃ n : Nat, IsNumeral radix text n ∧ value = n := by
  rw [isSignedNumeral_iff hradix, splitSign_of_unsigned h]
  simp [signUnit]

theorem signedLiteral?_eq :
    signedLiteral? radix text = if (splitSign text).2 = [] then none else
      ((digitsValue? radix (splitSign text).2).map
        fun n : Nat => signUnit (splitSign text).1 * n).filter isSigned64 := by
  simp only [signedLiteral?, List.isEmpty_iff, signUnit_mul]
  cases digitsValue? radix (splitSign text).2 <;> rfl

theorem signedLiteral?_eq_some_iff (hradix : radix ≤ 16) {value : Int} :
    signedLiteral? radix text = some value ↔ IsSignedNumeral radix text value ∧ Fits64 value := by
  rw [signedLiteral?_eq, Option.ite_none_left_eq_some, Option.filter_eq_some_iff,
    Option.map_eq_some_iff, isSigned64_iff, ← and_assoc, isSignedNumeral_iff hradix]
  simp only [isNumeral_iff hradix]
  refine and_congr_left fun _ => ?_
  constructor
  · rintro ⟨hdigits, n, hn, rfl⟩
    exact ⟨n, ⟨hdigits, hn⟩, rfl⟩
  · rintro ⟨n, ⟨hdigits, hn⟩, rfl⟩
    exact ⟨hdigits, n, hn, rfl⟩

end Interop
