import ControlPlane.Http.Percent
import ControlPlane.Proofs.Text.Order
import Mathlib.Data.List.Basic

/-!
# ControlPlane.Proofs.Http.Percent

Percent-encoding changes nothing for those who decode.  An encoding that keeps percent signs and
hexadecimal digits adds escapes but neither makes nor breaks those that a text has already, so what
an encoded text stands for is what the text itself stands for (`decode_encode`).  It stands for a
text with no more bytes (`length_decode_le`).
-/

namespace ControlPlane.Percent

/-- Whether a byte is a hexadecimal digit. -/
def isDigit (b : UInt8) : Bool := (Hexadecimal.digitValue? (Char.ofNat b.toNat)).isSome

/-- Whether bytes begin with two hexadecimal digits. -/
def beginsWithDigits : Bytes → Bool
  | high :: low :: _ => isDigit high && isDigit low
  | _ => false

/-! ## decoding one byte -/

theorem decode_cons_of_ne {b : UInt8} (h : b ≠ 37) (rest : Bytes) :
    decode (b :: rest) = b :: decode rest := by
  rw [decode]
  intro high low rest' hb
  exact absurd hb h

/-- A percent sign without two digits behind it stands for itself. -/
theorem decode_percent {rest : Bytes} (h : beginsWithDigits rest = false) :
    decode (37 :: rest) = 37 :: decode rest := by
  match rest, h with
  | [], _ => rfl
  | [_], _ => rfl
  | high :: low :: rest, h =>
      rw [decode]
      split
      · next hhigh hlow => simp [beginsWithDigits, isDigit, hhigh, hlow] at h
      · rfl

theorem decode_escape {high low : UInt8} {h l : Nat}
    (hhigh : Hexadecimal.digitValue? (Char.ofNat high.toNat) = some h)
    (hlow : Hexadecimal.digitValue? (Char.ofNat low.toNat) = some l) (rest : Bytes) :
    decode (37 :: high :: low :: rest) = UInt8.ofNat (16 * h + l) :: decode rest := by
  rw [decode, hhigh, hlow]

/-- What is decoded is no longer than before. -/
theorem length_decode_le (bs : Bytes) : (decode bs).length ≤ bs.length := by
  fun_induction decode bs with
  | case1 high low rest h l hlow hhigh ih =>
      simp only [List.length_cons]
      omega
  | case2 high low rest hnot ih =>
      simp only [List.length_cons] at ih ⊢
      omega
  | case3 b rest hnot ih => simpa using ih
  | case4 => simp

/-- Bytes that are as many as before stand for themselves. -/
theorem decode_eq_self {bs : Bytes} (h : bs.length ≤ (decode bs).length) : decode bs = bs := by
  fun_induction decode bs with
  | case1 high low rest hd l hlow hhigh ih =>
      have hle := length_decode_le rest
      simp only [List.length_cons] at h
      omega
  | case2 high low rest hnot ih => rw [ih (by simpa using h)]
  | case3 b rest hnot ih => rw [ih (by simpa using h)]
  | case4 => rfl

/-! ## encoding bytes -/

/-- The bytes of an escape. -/
def escapeByte (b : UInt8) : Bytes :=
  [37, UInt8.ofNat (Hexadecimal.upperDigitChar (b.toNat / 16)).toNat,
    UInt8.ofNat (Hexadecimal.upperDigitChar (b.toNat % 16)).toNat]

theorem digitValue?_upperDigit {n : Nat} (h : n < 16) :
    Hexadecimal.digitValue?
      (Char.ofNat (UInt8.ofNat (Hexadecimal.upperDigitChar n).toNat).toNat) = some n := by
  have hall : ∀ n < 16, Hexadecimal.digitValue?
      (Char.ofNat (UInt8.ofNat (Hexadecimal.upperDigitChar n).toNat).toNat) = some n := by decide
  exact hall n h

/-- An escape stands for its byte. -/
theorem decode_escapeByte (b : UInt8) (rest : Bytes) :
    decode (escapeByte b ++ rest) = b :: decode rest := by
  have hb := b.toNat_lt
  have hhigh := digitValue?_upperDigit (n := b.toNat / 16) (by omega)
  have hlow := digitValue?_upperDigit (n := b.toNat % 16) (by omega)
  have hbyte : 16 * (b.toNat / 16) + b.toNat % 16 = b.toNat := by omega
  show decode (37 :: _ :: _ :: rest) = _
  rw [decode_escape hhigh hlow, hbyte, UInt8.ofNat_toNat]

section Encode

variable (keep : UInt8 → Bool)

/-- Bytes of which those that fail a test are escaped. -/
def encodeBytes (bs : Bytes) : Bytes := bs.flatMap fun b => if keep b then [b] else escapeByte b

theorem encodeBytes_cons (b : UInt8) (bs : Bytes) :
    encodeBytes keep (b :: bs)
      = (if keep b then [b] else escapeByte b) ++ encodeBytes keep bs := List.flatMap_cons

variable {keep}

/-- No escape is made where digits stand only after encoding: it begins with a percent sign. -/
theorem beginsWithDigits_encodeBytes (bs : Bytes) (h : beginsWithDigits bs = false) :
    beginsWithDigits (encodeBytes keep bs) = false := by
  have hpercent : isDigit 37 = false := by decide
  match bs, h with
  | [], _ => rfl
  | [b], _ =>
      rw [encodeBytes_cons]
      split
      · rfl
      · simp [encodeBytes, escapeByte, beginsWithDigits, hpercent]
  | b :: c :: bs, h =>
      rw [encodeBytes_cons, encodeBytes_cons]
      split
      · split
        · exact h
        · simp [escapeByte, beginsWithDigits, hpercent]
      · simp [escapeByte, beginsWithDigits, hpercent]

/-- **Encoding and decoding**: escapes that are added are the only ones that are taken away. -/
theorem decode_encodeBytes (hpercent : keep 37 = true)
    (hdigits : ∀ b, isDigit b = true → keep b = true) (bs : Bytes) :
    decode (encodeBytes keep bs) = decode bs := by
  fun_induction decode bs with
  | case1 high low rest h l hlow hhigh ih =>
      have hkeep := hdigits high (by simp [isDigit, hhigh])
      have hkeep' := hdigits low (by simp [isDigit, hlow])
      rw [encodeBytes_cons, encodeBytes_cons, encodeBytes_cons, if_pos hpercent, if_pos hkeep,
        if_pos hkeep']
      show decode (37 :: high :: low :: encodeBytes keep rest) = _
      rw [decode_escape hhigh hlow, ih]
  | case2 high low rest hnot ih =>
      have hbegins : beginsWithDigits (high :: low :: rest) = false := by
        rw [beginsWithDigits, isDigit, isDigit]
        cases hhigh : Hexadecimal.digitValue? (Char.ofNat high.toNat) with
        | none => rfl
        | some h =>
            cases hlow : Hexadecimal.digitValue? (Char.ofNat low.toNat) with
            | none => rfl
            | some l => exact absurd hlow (hnot h l hhigh)
      rw [encodeBytes_cons, if_pos hpercent, List.singleton_append,
        decode_percent (beginsWithDigits_encodeBytes _ hbegins), ih]
  | case3 b rest hnot ih =>
      rw [encodeBytes_cons]
      split
      · by_cases hb : b = 37
        · have hbegins : beginsWithDigits rest = false := by
            match rest, hnot with
            | [], _ => rfl
            | [_], _ => rfl
            | high :: low :: rest, hnot => exact absurd rfl (hnot high low rest hb)
          rw [List.singleton_append, hb, decode_percent (beginsWithDigits_encodeBytes _ hbegins),
            ih]
        · rw [List.singleton_append, decode_cons_of_ne hb, ih]
      · rw [decode_escapeByte, ih]
  | case4 => rfl

end Encode

/-! ## encoding texts -/

/-- The one byte of a character of ASCII. -/
theorem utf8EncodeChar_of_lt {c : Char} (h : c.toNat < 128) :
    String.utf8EncodeChar c = [UInt8.ofNat c.toNat] := by
  have hval : c.val.toNat ≤ 127 := Nat.le_of_lt_succ h
  simp only [String.utf8EncodeChar, if_pos hval]
  rfl

/-- A character of ASCII is the first byte of a text that it begins. -/
theorem utf8_cons_of_lt {c : Char} (h : c.toNat < 128) (cs : List Char) :
    Utf8.encode (String.ofList (c :: cs))
      = UInt8.ofNat c.toNat :: Utf8.encode (String.ofList cs) := by
  rw [Utf8.encode_eq_flatMap, Utf8.encode_eq_flatMap, String.toList_ofList, String.toList_ofList,
    List.flatMap_cons, utf8EncodeChar_of_lt h, List.singleton_append]

/-- The bytes of any other character lie beyond ASCII. -/
theorem le_of_mem_utf8EncodeChar {c : Char} (h : 128 ≤ c.toNat) {b : UInt8}
    (hb : b ∈ String.utf8EncodeChar c) : 128 ≤ b.toNat := by
  have hval : 128 ≤ c.val.toNat := h
  have hmax : c.val.toNat ≤ 0x10ffff := by
    have := c.valid
    simp only [UInt32.isValidChar, Nat.isValidChar] at this
    omega
  simp only [String.utf8EncodeChar] at hb
  generalize c.val.toNat = n at hval hmax hb
  repeat' split at hb
  all_goals
    simp only [List.mem_cons, List.not_mem_nil, or_false] at hb
    rcases hb with rfl | rfl | rfl | rfl <;> simp only [UInt8.toNat_ofNat', Nat.reducePow] <;> omega

/-- An escape is written in ASCII. -/
theorem flatMap_encodeByte (b : UInt8) :
    (encodeByte b).flatMap String.utf8EncodeChar = escapeByte b := by
  have hdigit (n : Nat) (h : n < 16) : (Hexadecimal.upperDigitChar n).toNat < 128 := by
    have hall : ∀ n < 16, (Hexadecimal.upperDigitChar n).toNat < 128 := by decide
    exact hall n h
  have hb := b.toNat_lt
  simp only [encodeByte, List.flatMap_cons, List.flatMap_nil, List.append_nil,
    utf8EncodeChar_of_lt (hdigit (b.toNat / 16) (by omega)),
    utf8EncodeChar_of_lt (hdigit (b.toNat % 16) (by omega))]
  rfl

section Texts

variable {keep : Char → Bool} (hascii : ∀ c, keep c = true → c.toNat < 128)
include hascii

/-- A byte of a character is kept if the character is. -/
theorem keep_of_mem {c : Char} {b : UInt8} (hb : b ∈ String.utf8EncodeChar c) :
    keep (Char.ofNat b.toNat) = keep c := by
  rcases Nat.lt_or_ge c.toNat 128 with hlt | hge
  · rw [utf8EncodeChar_of_lt hlt, List.mem_singleton] at hb
    have hbyte : b.toNat = c.toNat := by
      rw [hb, UInt8.toNat_ofNat']
      omega
    rw [hbyte, Char.ofNat_toNat]
  · have hle := le_of_mem_utf8EncodeChar hge hb
    have hbyte : (Char.ofNat b.toNat).toNat = b.toNat := by
      have hvalid : b.toNat.isValidChar := .inl (Nat.lt_trans b.toNat_lt (by decide))
      rw [Char.ofNat, dif_pos hvalid]
      rfl
    have hnot {d : Char} (hd : 128 ≤ d.toNat) : keep d = false := by
      cases h : keep d with
      | false => rfl
      | true => exact absurd (hascii d h) (by omega)
    rw [hnot hge, hnot (by omega)]

/-- The bytes of an encoded text are those of the text, encoded one by one. -/
theorem utf8_encode (cs : List Char) :
    Utf8.encode (String.ofList (encode keep cs))
      = encodeBytes (fun b => keep (Char.ofNat b.toNat)) (Utf8.encode (String.ofList cs)) := by
  rw [Utf8.encode_eq_flatMap, Utf8.encode_eq_flatMap, String.toList_ofList, String.toList_ofList]
  induction cs with
  | nil => rfl
  | cons c cs ih =>
      have hchar : (if keep c then [c] else (String.utf8EncodeChar c).flatMap encodeByte).flatMap
            String.utf8EncodeChar
          = encodeBytes (fun b => keep (Char.ofNat b.toNat)) (String.utf8EncodeChar c) := by
        cases hc : keep c with
        | false =>
            rw [if_neg Bool.false_ne_true, List.flatMap_assoc, encodeBytes]
            refine List.flatMap_congr fun b hb => ?_
            rw [keep_of_mem hascii hb, hc, if_neg Bool.false_ne_true, flatMap_encodeByte]
        | true =>
            rw [if_pos rfl, List.flatMap_singleton, encodeBytes]
            refine (List.flatMap_singleton' _).symm.trans (List.flatMap_congr fun b hb => ?_)
            rw [keep_of_mem hascii hb, hc, if_pos rfl]
      rw [encode, List.flatMap_cons, List.flatMap_append, List.flatMap_cons,
        Utf8.encode_eq_flatMap, String.toList_ofList, List.flatMap_singleton, hchar]
      rw [encode] at ih
      rw [ih, encodeBytes, encodeBytes, encodeBytes, List.flatMap_append]

/-- **Encoded texts**: an encoding that keeps percent signs and hexadecimal digits leaves what a
text stands for. -/
theorem decodeText?_encode (hpercent : keep '%' = true)
    (hdigits : ∀ c, (Hexadecimal.digitValue? c).isSome = true → keep c = true) (cs : List Char) :
    decodeText? (encode keep cs) = decodeText? cs := by
  rw [decodeText?, decodeText?, utf8_encode hascii,
    decode_encodeBytes hpercent fun b => hdigits (Char.ofNat b.toNat)]

end Texts

end ControlPlane.Percent
