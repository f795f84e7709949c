import Interop.Decimal.Literal

/-! Printed numbers are literals. The digits of a number have its value, and the text of an integer
splits into a sign and the digits of its absolute value. -/

namespace Interop

theorem digitValue?_of_isDigit {c : Char} (h : c.isDigit = true) :
    digitValue? 10 c = some (c.toNat - '0'.toNat) := by
  obtain ⟨hlow, hhigh⟩ : '0' ≤ c ∧ c ≤ '9' := by
    simpa [Char.isDigit, Char.le_def] using h
  have hvalue : c.toNat - '0'.toNat < 10 := by
    have : c.toNat ≤ '9'.toNat := hhigh
    have hnine : '9'.toNat = '0'.toNat + 9 := rfl
    omega
  simp only [digitValue?, hlow, hhigh, decide_true, Bool.and_self, if_true, hvalue]

theorem digitsValue?_eq_ofDigitChars {digits : List Char}
    (h : ∀ c ∈ digits, c.isDigit = true) :
    digitsValue? 10 digits = some (Nat.ofDigitChars 10 digits 0) := by
  suffices hfold : ∀ value, digits.foldlM
      (fun value c => (digitValue? 10 c).map (10 * value + ·)) value =
        some (Nat.ofDigitChars 10 digits value) from hfold 0
  induction digits with
  | nil => exact fun _ => rfl
  | cons c digits ih =>
    obtain ⟨hc, hdigits⟩ := List.forall_mem_cons.mp h
    intro value
    rw [List.foldlM_cons, digitValue?_of_isDigit hc, Nat.ofDigitChars_cons]
    exact ih hdigits _

theorem isDigit_of_mem_toDigits {n : Nat} {c : Char} (h : c ∈ Nat.toDigits 10 n) :
    c.isDigit = true := Nat.isDigit_of_mem_toDigits (by decide) (by decide) h

theorem digitsValue?_toDigits (n : Nat) : digitsValue? 10 (Nat.toDigits 10 n) = some n := by
  rw [digitsValue?_eq_ofDigitChars fun _ => isDigit_of_mem_toDigits,
    Nat.ofDigitChars_ten_toDigits]

/-- A text that begins with a digit has no sign. -/
theorem splitSign_of_isDigit {c : Char} (h : c.isDigit = true) (text : List Char) :
    splitSign (c :: text) = (false, c :: text) := by
  unfold splitSign
  split <;> simp_all

theorem toList_toString (value : Int) :
    (toString value).toList = (if value < 0 then ['-'] else []) ++ Nat.toDigits 10 value.natAbs := by
  cases value with
  | ofNat n =>
    have htext : (toString (Int.ofNat n)).toList = Nat.toDigits 10 n := Nat.toList_repr
    have hsign : ¬ Int.ofNat n < 0 := by simp
    rw [htext, if_neg hsign]
    rfl
  | negSucc n =>
    have htext : toString (Int.negSucc n) = "-" ++ (n + 1).repr := rfl
    have hsign : Int.negSucc n < 0 := by simp
    rw [htext, if_pos hsign, String.toList_append, Nat.toList_repr]
    rfl

theorem splitSign_toString (value : Int) :
    splitSign (toString value).toList = (decide (value < 0), Nat.toDigits 10 value.natAbs) := by
  rw [toList_toString]
  by_cases hsign : value < 0
  · rw [if_pos hsign, decide_eq_true hsign]
    rfl
  · rw [if_neg hsign, decide_eq_false hsign, List.nil_append]
    cases hdigits : Nat.toDigits 10 value.natAbs with
    | nil => exact absurd hdigits Nat.toDigits_ne_nil
    | cons c rest =>
      exact splitSign_of_isDigit (isDigit_of_mem_toDigits (hdigits ▸ List.mem_cons_self)) rest

/-- The text of an integer of 64 bits is a literal of that integer. -/
theorem signedLiteral?_toString {value : Int} (h : isSigned64 value = true) :
    signedLiteral? 10 (toString value).toList = some value := by
  have hdigits : (Nat.toDigits 10 value.natAbs).isEmpty = false := by
    simpa only [List.isEmpty_eq_false_iff] using Nat.toDigits_ne_nil
  have hvalue : (if decide (value < 0) = true then -(value.natAbs : Int) else value.natAbs) =
      value := by
    simp only [decide_eq_true_eq]
    split <;> omega
  simp only [signedLiteral?, splitSign_toString, hdigits, digitsValue?_toDigits,
    Option.bind_eq_bind, Option.bind_some, Option.pure_def, Option.map_some, hvalue,
    Option.filter_some, h, Bool.false_eq_true, if_false, if_true]

end Interop
