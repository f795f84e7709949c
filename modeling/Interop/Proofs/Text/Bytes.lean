import Interop.Proofs.Text.Position

/-! Texts as bytes. A character of one byte is found among the bytes of a text just where it stands
itself: the bytes of a longer character all have their high bit set. -/

namespace Interop

/-- The bytes of a text in UTF-8. -/
def bytesOf (text : List Char) : List UInt8 := text.flatMap String.utf8EncodeChar

@[simp] theorem bytesOf_nil : bytesOf [] = [] := rfl

@[simp] theorem bytesOf_cons (c : Char) (text : List Char) :
    bytesOf (c :: text) = String.utf8EncodeChar c ++ bytesOf text := List.flatMap_cons

@[simp] theorem bytesOf_append (a b : List Char) : bytesOf (a ++ b) = bytesOf a ++ bytesOf b :=
  List.flatMap_append

theorem bytesOf_toList (source : String) :
    bytesOf source.toList = source.toByteArray.data.toList := by
  rw [← String.utf8Encode_toList, List.utf8Encode, List.data_toByteArray]
  rfl

@[simp] theorem length_bytesOf (text : List Char) : (bytesOf text).length = byteLength text := by
  induction text with
  | nil => rfl
  | cons c text ih => simp [ih]

/-- The bytes of a character that takes several are not ASCII. -/
theorem le_of_mem_utf8EncodeChar {c : Char} (hc : c.utf8Size ≠ 1) {byte : UInt8}
    (h : byte ∈ String.utf8EncodeChar c) : 128 ≤ byte.toNat := by
  have hhigh : ∀ low mark : UInt8, 128 ≤ mark.toNat → 128 ≤ (low ||| mark).toNat := by
    intro low mark hmark
    rw [UInt8.toNat_or]
    exact Nat.le_trans hmark Nat.right_le_or
  rcases Char.utf8Size_eq c with hone | htwo | hthree | hfour
  · exact absurd hone hc
  · rw [String.utf8EncodeChar_eq_cons_cons htwo] at h
    simp only [List.mem_cons, List.not_mem_nil, or_false] at h
    rcases h with rfl | rfl <;> exact hhigh _ _ (by decide)
  · rw [String.utf8EncodeChar_eq_cons_cons_cons hthree] at h
    simp only [List.mem_cons, List.not_mem_nil, or_false] at h
    rcases h with rfl | rfl | rfl <;> exact hhigh _ _ (by decide)
  · rw [String.utf8EncodeChar_eq_cons_cons_cons_cons hfour] at h
    simp only [List.mem_cons, List.not_mem_nil, or_false] at h
    rcases h with rfl | rfl | rfl | rfl <;> exact hhigh _ _ (by decide)

/-- A character of one byte is no part of another character. -/
theorem mem_utf8EncodeChar_iff {a c : Char} (ha : a.utf8Size = 1) :
    a.val.toUInt8 ∈ String.utf8EncodeChar c ↔ c = a := by
  have hsmall : ∀ d : Char, d.utf8Size = 1 → d.val.toUInt8.toNat = d.toNat ∧ d.toNat < 128 := by
    intro d hd
    have hle := UInt32.le_iff_toNat_le.mp (Char.utf8Size_eq_one_iff.mp hd)
    have hval : d.val.toNat = d.toNat := rfl
    have hmax : (127 : UInt32).toNat = 127 := rfl
    rw [UInt32.toNat_toUInt8]
    omega
  obtain ⟨hbyte, hlow⟩ := hsmall a ha
  constructor
  · intro h
    by_cases hc : c.utf8Size = 1
    · rw [String.utf8EncodeChar_eq_singleton hc, List.mem_singleton] at h
      have hsame : c.toNat = a.toNat := by
        rw [← (hsmall c hc).1, ← hbyte, h]
      exact Char.toNat_inj.mp hsame
    · have := le_of_mem_utf8EncodeChar hc h
      omega
  · rintro rfl
    rw [String.utf8EncodeChar_eq_singleton ha]
    exact .head _

end Interop
