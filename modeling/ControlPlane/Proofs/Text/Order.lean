import ControlPlane.SortedMap
import ControlPlane.Text.Utf8

/-!
# ControlPlane.Proofs.Text.Order

The order of texts is the order of their bytes.  A text with a smaller character at the first
difference has the smaller byte there, whatever follows (`encodeChar_append_lt`), so sorting names
by characters and sorting their UTF-8 forms as unsigned bytes is the same (`encode_lt_encode`), and
a map lists its names in the order of their bytes (`pairwise_encode_keys`).
-/

namespace ControlPlane

namespace Utf8

/-- The bytes of a text are those of its characters, one after the other. -/
theorem encode_eq_flatMap (s : String) : encode s = s.toList.flatMap String.utf8EncodeChar := by
  rw [encode, String.toUTF8_eq_toByteArray, ← String.utf8Encode_toList, List.utf8Encode,
    List.data_toByteArray]

/-- A text has at least as many bytes as characters. -/
theorem length_le_length_encode (s : String) : s.length ≤ (encode s).length := by
  rw [encode_eq_flatMap, ← String.length_toList]
  induction s.toList with
  | nil => exact Nat.le_refl _
  | cons c cs ih =>
      have hc := c.utf8Size_pos
      rw [List.flatMap_cons, List.length_append, String.length_utf8EncodeChar, List.length_cons]
      omega

/-- A character has at most four bytes. -/
theorem length_encode_le (s : String) : (encode s).length ≤ 4 * s.length := by
  rw [encode_eq_flatMap, ← String.length_toList]
  induction s.toList with
  | nil => exact Nat.le_refl _
  | cons c cs ih =>
      have hc := c.utf8Size_le_four
      rw [List.flatMap_cons, List.length_append, String.length_utf8EncodeChar, List.length_cons]
      omega

/-- The first difference of two numbers in base 64. -/
theorem digits_lt {m n : Nat} (h : m < n) :
    m / 262144 < n / 262144 ∨ m / 262144 = n / 262144 ∧
      (m / 4096 % 64 < n / 4096 % 64 ∨ m / 4096 % 64 = n / 4096 % 64 ∧
        (m / 64 % 64 < n / 64 % 64 ∨ m / 64 % 64 = n / 64 % 64 ∧ m % 64 < n % 64)) := by
  have digit {a b : Nat} (h : a < b) : a / 64 < b / 64 ∨ a / 64 = b / 64 ∧ a % 64 < b % 64 := by
    omega
  have e1 (a : Nat) : a / 4096 = a / 64 / 64 := by omega
  have e2 (a : Nat) : a / 262144 = a / 64 / 64 / 64 := by omega
  rw [e1, e1, e2, e2]
  rcases digit h with h | ⟨h0, h⟩
  · rcases digit h with h | ⟨h1, h⟩
    · rcases digit h with h | ⟨h2, h⟩
      · exact .inl h
      · exact .inr ⟨h2, .inl h⟩
    · exact .inr ⟨by rw [h1], .inr ⟨by rw [h1], .inl h⟩⟩
  · exact .inr ⟨by rw [h0], .inr ⟨by rw [h0], .inr ⟨by rw [h0], h⟩⟩⟩

/-- The bytes of a smaller character are smaller, whatever follows. -/
theorem encodeChar_append_lt {a b : Char} (h : a < b) (x y : Bytes) :
    String.utf8EncodeChar a ++ x < String.utf8EncodeChar b ++ y := by
  have hlt : a.val.toNat < b.val.toNat := h
  have hmax : b.val.toNat ≤ 0x10ffff := by
    have := b.valid
    simp only [UInt32.isValidChar, Nat.isValidChar] at this
    omega
  simp only [String.utf8EncodeChar]
  generalize a.val.toNat = m at hlt ⊢
  generalize b.val.toNat = n at hlt hmax ⊢
  have hdigits := digits_lt hlt
  -- One case for each pair of lengths; the greater character never has the shorter form.
  repeat' split
  all_goals try omega
  -- The bytes are digits of base 64 behind a mark that grows with the length, so the first
  -- difference of two forms is the first difference of the numbers.
  all_goals
    simp only [List.cons_append, List.nil_append, List.cons_lt_cons_iff, UInt8.lt_iff_toNat_lt,
      ← UInt8.toNat_inj, UInt8.toNat_ofNat', Nat.reducePow]
    simp (disch := omega) only [Nat.mod_eq_of_lt (b := 256), Nat.mod_eq_of_lt (b := 32),
      Nat.mod_eq_of_lt (b := 16), Nat.mod_eq_of_lt (b := 8)]
    omega

theorem append_lt_append_left {x y : Bytes} (h : x < y) (b : Bytes) : b ++ x < b ++ y := by
  induction b with
  | nil => exact h
  | cons a b ih => exact List.cons_lt_cons_iff.2 (.inr ⟨rfl, ih⟩)

/-- The bytes of a smaller text are smaller. -/
theorem encode_lt_encode {s t : String} (h : s < t) : encode s < encode t := by
  rw [encode_eq_flatMap, encode_eq_flatMap]
  rw [String.lt_iff] at h
  generalize s.toList = cs at h
  generalize t.toList = ds at h
  induction cs generalizing ds with
  | nil =>
      cases ds with
      | nil => exact absurd h (List.not_lt_nil _)
      | cons d ds =>
          rw [List.flatMap_nil, List.flatMap_cons]
          cases hd : String.utf8EncodeChar d with
          | nil => exact absurd hd String.utf8EncodeChar_ne_nil
          | cons b bs => exact List.nil_lt_cons _ _
  | cons c cs ih =>
      cases ds with
      | nil => exact absurd h (List.not_lt_nil _)
      | cons d ds =>
          rw [List.flatMap_cons, List.flatMap_cons]
          rcases List.cons_lt_cons_iff.1 h with hcd | ⟨rfl, hrest⟩
          · exact encodeChar_append_lt hcd _ _
          · exact append_lt_append_left (ih ds hrest) _

/-- Texts are in the order of their bytes. -/
theorem encode_lt_encode_iff {s t : String} : encode s < encode t ↔ s < t := by
  refine ⟨fun h => ?_, encode_lt_encode⟩
  by_cases hst : s < t
  · exact hst
  · by_cases hts : t < s
    · exact absurd h (List.lt_asymm (encode_lt_encode hts))
    · cases String.le_antisymm (String.not_lt.1 hts) (String.not_lt.1 hst)
      exact absurd h (List.lt_irrefl _)

end Utf8

/-- The keys of a map increase strictly as byte strings. -/
theorem SortedMap.pairwise_encode_keys {ν : Type} (m : SortedMap String ν) :
    (m.keys.map Utf8.encode).Pairwise (· < ·) := by
  rw [keys, List.map_map]
  exact m.ordered.map _ fun p q hpq => Utf8.encode_lt_encode (compareOfLessAndEq_eq_lt.1 hpq)

end ControlPlane
