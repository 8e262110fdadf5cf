import ControlPlane.Proofs.Text.Order

/-!
# ControlPlane.Proofs.Text.Characters

Bytes that are gone through character by character.  What a text is encoded to gives its characters
back (`charactersFrom_encode`), whatever is read for stray bytes, of which there are none.
-/

namespace ControlPlane.Utf8

/-- The bytes of a character, and what follows them. -/
theorem front?_encodeChar_append (c : Char) (b : Bytes) :
    front? (String.utf8EncodeChar c ++ b) = some c := by
  have hlength : (String.utf8EncodeChar c).length ≤ 4 := by
    rw [String.length_utf8EncodeChar]
    exact c.utf8Size_le_four
  rw [front?, List.take_append, List.take_of_length_le hlength, List.toByteArray_append]
  exact ByteArray.utf8DecodeChar?_utf8EncodeChar_append

/-- Bytes that have been read are passed over. -/
theorem charactersFrom_append (stray : List Char) (front b : Bytes) :
    charactersFrom stray front.length (front ++ b) = charactersFrom stray 0 b := by
  induction front with
  | nil => rfl
  | cons byte front ih => exact ih

theorem charactersFrom_encodeChar_append (stray : List Char) (c : Char) (b : Bytes) :
    charactersFrom stray 0 (String.utf8EncodeChar c ++ b) = c :: charactersFrom stray 0 b := by
  have hfront := front?_encodeChar_append c b
  have hlength := String.length_utf8EncodeChar c
  cases hbytes : String.utf8EncodeChar c with
  | nil =>
      rw [hbytes] at hlength
      exact absurd hlength (Nat.ne_of_lt c.utf8Size_pos)
  | cons byte rest =>
      rw [hbytes] at hfront hlength
      have hrest : c.utf8Size - 1 = rest.length := by
        rw [← hlength, List.length_cons, Nat.add_sub_cancel]
      rw [List.cons_append] at hfront ⊢
      simp only [charactersFrom, hfront, hrest, charactersFrom_append]

/-- **The characters of a text** are those of its bytes. -/
theorem charactersFrom_encode (stray : List Char) (s : String) :
    charactersFrom stray 0 (encode s) = s.toList := by
  rw [encode_eq_flatMap]
  induction s.toList with
  | nil => rfl
  | cons c cs ih => rw [List.flatMap_cons, charactersFrom_encodeChar_append, ih]

/-- Every byte gives one character, none, or what is read for stray bytes. -/
theorem length_charactersFrom_le {stray : List Char} (h : stray ≠ []) (skip : Nat) (b : Bytes) :
    (charactersFrom stray skip b).length ≤ stray.length * b.length := by
  have hpos : 0 < stray.length := List.length_pos_iff.2 h
  induction b generalizing skip with
  | nil => exact Nat.zero_le _
  | cons byte rest ih =>
      rw [List.length_cons, Nat.mul_succ]
      cases skip with
      | succ skip => exact Nat.le_trans (ih skip) (Nat.le_add_right _ _)
      | zero =>
          rw [charactersFrom]
          cases front? (byte :: rest) with
          | some c =>
              rw [List.length_cons]
              exact Nat.add_le_add (ih _) hpos
          | none =>
              rw [List.length_append, Nat.add_comm]
              exact Nat.add_le_add_right (ih 0) _

end ControlPlane.Utf8
