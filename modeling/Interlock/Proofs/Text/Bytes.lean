import Mathlib.Data.String.Basic
import Mathlib.Order.Lattice

/-!
# The order of bytes

Names are ordered by their code points. Their bytes are ordered in the same way
(`Text.lt_iff_bytes_lt`): UTF-8 gives a greater character a greater code, and no code is the
beginning of another (`Text.encode_append_lt`).
-/

namespace Interlock.Text

/-- The bytes of a text. -/
def bytes (s : String) : List UInt8 := s.toUTF8.data.toList

theorem bytes_eq_flatMap (s : String) : bytes s = s.toList.flatMap String.utf8EncodeChar := by
  rw [bytes, String.toUTF8_eq_toByteArray, ← String.utf8Encode_toList, List.utf8Encode,
    List.toList_data_toByteArray]

variable {m n : Nat}

theorem ofNat_lt_ofNat_iff (hm : m < 256) (hn : n < 256) :
    UInt8.ofNat m < UInt8.ofNat n ↔ m < n := by
  rw [UInt8.lt_iff_toNat_lt, UInt8.toNat_ofNat', UInt8.toNat_ofNat']
  omega

theorem ofNat_eq_ofNat_iff (hm : m < 256) (hn : n < 256) :
    UInt8.ofNat m = UInt8.ofNat n ↔ m = n := by
  rw [← UInt8.toNat_inj, UInt8.toNat_ofNat', UInt8.toNat_ofNat']
  omega

/-- Numbers are ordered by their last digit to the base 64 and what is before it. -/
theorem digit_lt (h : m < n) : m / 64 < n / 64 ∨ m / 64 = n / 64 ∧ m % 64 < n % 64 := by
  omega

/-- The order of two codes is decided at the first byte in which they differ. -/
theorem ofNat_cons_lt {xs ys : List UInt8} (hm : m < 256) (hn : n < 256)
    (h : m < n ∨ m = n ∧ xs < ys) : UInt8.ofNat m :: xs < UInt8.ofNat n :: ys := by
  rwa [List.cons_lt_cons_iff, ofNat_lt_ofNat_iff hm hn, ofNat_eq_ofNat_iff hm hn]

/-- Bytes that carry a digit to the base 64 each are ordered as the numbers are. -/
theorem digit_cons_lt {xs ys : List UInt8} (h : m % 64 < n % 64 ∨ m % 64 = n % 64 ∧ xs < ys) :
    UInt8.ofNat (m % 64 + 128) :: xs < UInt8.ofNat (n % 64 + 128) :: ys :=
  ofNat_cons_lt (by omega) (by omega) (h.imp (by omega) fun ⟨e, h⟩ => ⟨by omega, h⟩)

/-- The code of a greater character is greater, whatever follows. -/
theorem encode_append_lt {c d : Char} (h : c < d) (cs ds : List UInt8) :
    String.utf8EncodeChar c ++ cs < String.utf8EncodeChar d ++ ds := by
  have hlt : c.val.toNat < d.val.toNat := h
  have hd : d.val.toNat < 0x110000 := by
    rcases d.valid with h | h <;> omega
  have h₂ (k : Nat) : k / 4096 = k / 64 / 64 := (Nat.div_div_eq_div_mul k 64 64).symm
  have h₃ (k : Nat) : k / 262144 = k / 64 / 64 / 64 := by
    rw [Nat.div_div_eq_div_mul, Nat.div_div_eq_div_mul]
  simp only [String.utf8EncodeChar, h₂, h₃]
  generalize c.val.toNat = m at *
  generalize d.val.toNat = n at *
  clear h h₂ h₃
  -- codes of different lengths differ in the first byte, others in the first digit that differs
  split
  · split
    · exact ofNat_cons_lt (by omega) (by omega) (.inl hlt)
    · split
      · exact ofNat_cons_lt (by omega) (by omega) (.inl (by omega))
      · split <;> exact ofNat_cons_lt (by omega) (by omega) (.inl (by omega))
  · rw [if_neg (show ¬ n ≤ 0x7f by omega)]
    split
    · split
      · rcases digit_lt hlt with h | ⟨e, h⟩
        · exact ofNat_cons_lt (by omega) (by omega) (.inl (by omega))
        · exact ofNat_cons_lt (by omega) (by omega) (.inr ⟨by rw [e], digit_cons_lt (.inl h)⟩)
      · split <;> exact ofNat_cons_lt (by omega) (by omega) (.inl (by omega))
    · rw [if_neg (show ¬ n ≤ 0x7ff by omega)]
      split
      · split
        · rcases digit_lt hlt with h | ⟨e, h⟩
          · rcases digit_lt h with h | ⟨e, h⟩
            · exact ofNat_cons_lt (by omega) (by omega) (.inl (by omega))
            · exact ofNat_cons_lt (by omega) (by omega) (.inr ⟨by rw [e], digit_cons_lt (.inl h)⟩)
          · exact ofNat_cons_lt (by omega) (by omega) (.inr ⟨by rw [e], digit_cons_lt
              (.inr ⟨by rw [e], digit_cons_lt (.inl h)⟩)⟩)
        · exact ofNat_cons_lt (by omega) (by omega) (.inl (by omega))
      · rw [if_neg (show ¬ n ≤ 0xffff by omega)]
        rcases digit_lt hlt with h | ⟨e, h⟩
        · rcases digit_lt h with h | ⟨e, h⟩
          · rcases digit_lt h with h | ⟨e, h⟩
            · exact ofNat_cons_lt (by omega) (by omega) (.inl (by omega))
            · exact ofNat_cons_lt (by omega) (by omega) (.inr ⟨by rw [e], digit_cons_lt (.inl h)⟩)
          · exact ofNat_cons_lt (by omega) (by omega) (.inr ⟨by rw [e], digit_cons_lt
              (.inr ⟨by rw [e], digit_cons_lt (.inl h)⟩)⟩)
        · exact ofNat_cons_lt (by omega) (by omega) (.inr ⟨by rw [e], digit_cons_lt
            (.inr ⟨by rw [e], digit_cons_lt (.inr ⟨by rw [e], digit_cons_lt (.inl h)⟩)⟩)⟩)

theorem flatMap_encode_lt {cs ds : List Char} (h : cs < ds) :
    cs.flatMap String.utf8EncodeChar < ds.flatMap String.utf8EncodeChar := by
  induction h with
  | nil =>
    rename_i d ds
    rw [List.flatMap_nil, List.flatMap_cons]
    cases he : String.utf8EncodeChar d with
    | nil => exact absurd he String.utf8EncodeChar_ne_nil
    | cons b bs => exact List.nil_lt_cons _ _
  | cons _ ih =>
    rw [List.flatMap_cons, List.flatMap_cons]
    exact List.append_left_lt ih
  | rel h =>
    rw [List.flatMap_cons, List.flatMap_cons]
    exact encode_append_lt h _ _

/-- **Texts are ordered by their bytes.** -/
theorem lt_iff_bytes_lt {a b : String} : a < b ↔ bytes a < bytes b := by
  simp only [bytes_eq_flatMap]
  refine ⟨flatMap_encode_lt, fun h => ?_⟩
  by_contra hab
  rcases lt_or_eq_of_le (not_lt.1 hab) with hba | rfl
  · exact List.lt_asymm h (flatMap_encode_lt hba)
  · exact List.lt_irrefl _ h

theorem bytes_inj {a b : String} : bytes a = bytes b ↔ a = b := by
  refine ⟨fun h => ?_, fun h => h ▸ rfl⟩
  by_contra hne
  rcases lt_or_gt_of_ne hne with hlt | hlt
  · exact List.lt_irrefl _ (h ▸ lt_iff_bytes_lt.1 hlt)
  · exact List.lt_irrefl _ (h ▸ lt_iff_bytes_lt.1 hlt)

theorem bytes_le_iff {a b : String} : bytes a ≤ bytes b ↔ a ≤ b := by
  rw [← not_lt, lt_iff_bytes_lt]
  rfl

end Interlock.Text
