/-!
# ControlPlane.Text.Utf8

Texts as bytes.  Names travel as UTF-8, are ordered by their bytes, and are at rest as bytes; this
module holds the two directions and the law that ties them together.  Bytes that are no UTF-8 as a
whole can still be gone through character by character (`charactersFrom`).
-/

namespace ControlPlane

/-- A byte string. -/
abbrev Bytes := List UInt8

namespace Utf8

/-- The UTF-8 bytes of a text. -/
def encode (s : String) : Bytes := s.toUTF8.data.toList

/-- The text that these bytes spell, if they are valid UTF-8. -/
def decode? (b : Bytes) : Option String := String.fromUTF8? ⟨b.toArray⟩

/-- The character whose bytes are at the front, if there is one. -/
def front? (b : Bytes) : Option Char := (b.take 4).toByteArray.utf8DecodeChar? 0

/-- The characters of bytes of which the first `skip` have been read.  For a byte that belongs to no
character, `stray` is read. -/
def charactersFrom (stray : List Char) : Nat → Bytes → List Char
  | _, [] => []
  | skip + 1, _ :: rest => charactersFrom stray skip rest
  | 0, byte :: rest =>
    match front? (byte :: rest) with
    | some c => c :: charactersFrom stray (c.utf8Size - 1) rest
    | none => stray ++ charactersFrom stray 0 rest

/-- The number of UTF-8 bytes of a text. -/
theorem length_encode (s : String) : (encode s).length = s.utf8ByteSize := by
  simp [encode]

@[simp] theorem decode?_encode (s : String) : decode? (encode s) = some s := by
  have h : (⟨s.toUTF8.data.toList.toArray⟩ : ByteArray) = s.toUTF8 := by simp
  simp only [decode?, encode, h, String.fromUTF8?]
  simp [String.fromUTF8, s.isValidUTF8]

theorem encode_of_decode? {b : Bytes} {s : String} (h : decode? b = some s) : encode s = b := by
  simp only [decode?, String.fromUTF8?] at h
  split at h
  · cases h
    simp [encode, String.fromUTF8]
  · simp at h

theorem decode?_eq_some_iff {b : Bytes} {s : String} : decode? b = some s ↔ b = encode s :=
  ⟨fun h => (encode_of_decode? h).symm, fun h => h ▸ decode?_encode s⟩

end Utf8

end ControlPlane
