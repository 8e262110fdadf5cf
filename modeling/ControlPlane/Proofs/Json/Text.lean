import ControlPlane.Json.Shape
import ControlPlane.Proofs.Number.Integer

/-!
# ControlPlane.Proofs.Json.Text

Numbers and strings in JSON text.  The digits of an integer of 64 bits are read back as that
integer, provided that what follows could not continue a number (`number_signed`); a quoted string
is read back whatever follows (`string_quote`).  A byte that belongs to no character spoils a string
that is read (`stringBody_stray`), but not one that is passed over (`ignoredString_stray`).
-/

namespace ControlPlane

/-! ## digits -/

/-- Only zero begins with a zero. -/
theorem Decimal.head?_digits_ne_zero {n : Nat} (h : 0 < n) :
    (Decimal.digits n).head? ≠ some '0' := by
  induction n using Nat.strongRecOn with
  | ind n ih =>
      rw [Decimal.digits]
      split
      · next hlt =>
          have : ∀ n < 10, 0 < n → [Decimal.digitChar n].head? ≠ some '0' := by decide
          exact this n hlt h
      · next hge =>
          obtain ⟨d, ds, hds⟩ := List.exists_cons_of_ne_nil (Decimal.digits_ne_nil (n / 10))
          have hhead := ih (n / 10) (by omega) (by omega)
          rw [hds] at hhead ⊢
          exact hhead

/-- No number has a needless zero in front. -/
theorem Decimal.length_digits_of_head? {n : Nat} (h : (Decimal.digits n).head? = some '0') :
    (Decimal.digits n).length = 1 := by
  rcases Nat.eq_zero_or_pos n with rfl | hpos
  · rw [Decimal.digits, dif_pos (by decide)]
    rfl
  · exact absurd h (Decimal.head?_digits_ne_zero hpos)

namespace Json

/-- What may stand behind a number: a character that does not continue it, or nothing. -/
def Closed (cs : List Char) : Prop :=
  ∀ c, cs.head? = some c → Decimal.isDigit c = false ∧ c ≠ '.' ∧ c ≠ 'e' ∧ c ≠ 'E'

theorem closed_nil : Closed [] := by simp [Closed]

theorem closed_cons {c : Char} (h : Decimal.isDigit c = false ∧ c ≠ '.' ∧ c ≠ 'e' ∧ c ≠ 'E')
    (cs : List Char) : Closed (c :: cs) := by
  intro c' hc'
  cases hc'
  exact h

namespace Numeral

theorem splitDigits_append {ds rest : List Char} (hds : ∀ c ∈ ds, Decimal.isDigit c = true)
    (hrest : Closed rest) : splitDigits (ds ++ rest) = (ds, rest) := by
  have hstop : rest.takeWhile Decimal.isDigit = [] ∧ rest.dropWhile Decimal.isDigit = rest := by
    cases rest with
    | nil => exact ⟨rfl, rfl⟩
    | cons c rest => simp [(hrest c rfl).1]
  rw [splitDigits, List.takeWhile_append_of_pos hds, List.dropWhile_append_of_pos hds, hstop.1,
    hstop.2, List.append_nil]

/-- Digits that spell a number of 64 bits are all used. -/
theorem significand_eq {n : Nat} {ds : List Char}
    (h : Integer.extend n ds ≤ 18446744073709551615) :
    significand n ds = (Integer.extend n ds, ds.length) := by
  induction ds generalizing n with
  | nil => rfl
  | cons d ds ih =>
      have hle := Integer.le_extend (n * 10 + Decimal.digitValue d) ds
      have hnext : n * 10 + Decimal.digitValue d ≤ 18446744073709551615 := Nat.le_trans hle h
      simp only [significand, if_pos hnext, ih h]
      rfl

/-- Digits that are not followed by a fraction or an exponent are an integer. -/
theorem readMagnitude_digits {n : Nat} (h : n ≤ 18446744073709551615) (negative : Bool)
    {rest : List Char} (hrest : Closed rest) :
    readMagnitude negative (Decimal.digits n ++ rest) = some (ofInteger negative n, rest) := by
  have hsplit : splitDigits (Decimal.digits n ++ rest) = (Decimal.digits n, rest) :=
    splitDigits_append (fun c hc => Decimal.isDigit_of_mem_digits hc) hrest
  have hvalue : Integer.extend 0 (Decimal.digits n) = n := Decimal.value_digits n
  have hsig : significand 0 (Decimal.digits n) = (n, (Decimal.digits n).length) := by
    rw [significand_eq (by rw [hvalue]; exact h), hvalue]
  have hfront : ¬ ((Decimal.digits n).isEmpty = true ∨
      (Decimal.digits n).head? = some '0' ∧ (Decimal.digits n).length ≠ 1) := by
    intro hbad
    cases hbad with
    | inl hempty => exact Decimal.digits_ne_nil n (List.isEmpty_iff.1 hempty)
    | inr hzero => exact hzero.2 (Decimal.length_digits_of_head? hzero.1)
  simp only [readMagnitude, hsplit, if_neg hfront, hsig, Nat.sub_self]
  cases rest with
  | nil => simp
  | cons c rest =>
      obtain ⟨-, hdot, he, hE⟩ := hrest c rfl
      split
      · next heq =>
          cases heq
          exact absurd rfl hdot
      · next heq =>
          cases heq
          simp [he, hE]
      · next heq => cases heq

end Numeral

/-- An integer of 64 bits is read back from its digits. -/
theorem Reader.number_signed {n : Int} (hlow : -9223372036854775808 ≤ n)
    (hhigh : n ≤ 18446744073709551615) {rest : List Char} (hrest : Closed rest) :
    Reader.number (Decimal.signed n ++ rest) = .ok (.int n, rest) := by
  cases n with
  | ofNat n =>
      have hn : n ≤ 18446744073709551615 := by
        have : (n : Int) ≤ 18446744073709551615 := hhigh
        omega
      obtain ⟨d, ds, hds⟩ := List.exists_cons_of_ne_nil (Decimal.digits_ne_nil n)
      have hd : d ≠ '-' := by
        have hdigit := Decimal.isDigit_of_mem_digits (n := n) (c := d) (by simp [hds])
        intro h
        subst h
        revert hdigit
        decide
      have hread := Numeral.readMagnitude_digits hn false hrest
      rw [hds, List.cons_append] at hread
      rw [Decimal.signed, hds, List.cons_append]
      simp [Reader.number, hd, hread, Numeral.ofInteger]
  | negSucc n =>
      have hn : n + 1 ≤ 9223372036854775808 := by omega
      have hread := Numeral.readMagnitude_digits (n := n + 1) (by omega) true hrest
      rw [Decimal.signed, List.cons_append, Reader.number]
      simp only [hread, Numeral.ofInteger]
      rw [if_neg (by simp), if_neg (by omega), if_pos hn]
      rfl

/-! ## strings -/

namespace Reader

/-- A character that is written as it is is read as it is. -/
theorem stringBody_cons {c : Char} (hquote : c ≠ '"') (hslash : c ≠ '\\') (hlow : ¬ c.toNat < 32)
    (cs : List Char) :
    stringBody (c :: cs) = (stringBody cs).map fun r => (c :: r.1, r.2) := by
  rw [stringBody.eq_def]
  split
  · next heq => cases heq
  · next heq =>
      cases heq
      exact absurd rfl hquote
  · next heq =>
      cases heq
      exact absurd rfl hslash
  · next heq =>
      cases heq
      rw [if_neg hlow]
      cases stringBody cs <;> rfl

/-- An escape is read as the character that it stands for. -/
theorem stringBody_escape {c : Char} {cs : List Char} (taken : Nat)
    (h : escape cs = some (c, taken)) :
    stringBody ('\\' :: cs) = (stringBody (cs.drop taken)).map fun r => (c :: r.1, r.2) := by
  rw [stringBody.eq_def]
  simp only [h, bind, Option.bind]
  cases stringBody (cs.drop taken) <;> rfl

/-- Two hexadecimal digits behind two zeros are the number that they spell. -/
theorem codeUnit?_digits {n : Nat} (h : n < 256) (cs : List Char) :
    codeUnit? ('0' :: '0' :: Hexadecimal.digitChar (n / 16) :: Hexadecimal.digitChar (n % 16) :: cs)
      = some n := by
  have hzero : Hexadecimal.digitValue? '0' = some 0 := by decide
  have hhigh := Hexadecimal.digitValue?_digitChar (n := n / 16) (by omega)
  have hlow := Hexadecimal.digitValue?_digitChar (n := n % 16) (by omega)
  simp only [codeUnit?, List.take_succ_cons, List.take_zero, List.length_cons, List.length_nil,
    if_pos, Hexadecimal.value?, List.foldlM_cons, List.foldlM_nil, hzero, hhigh, hlow,
    Option.map_some, Option.bind_eq_bind, Option.bind_some, Option.pure_def, Option.some.injEq]
  omega

/-- A character inside a string is read back. -/
theorem stringBody_escapeChar (c : Char) (cs : List Char) :
    stringBody (escapeChar c ++ cs) = (stringBody cs).map fun r => (c :: r.1, r.2) := by
  unfold escapeChar
  split
  all_goals try exact stringBody_escape 1 rfl
  next hquote hslash _ _ _ _ _ =>
  split
  · next hlow =>
      simp only [List.cons_append, List.nil_append]
      refine stringBody_escape 5 ?_
      simp only [escape, codeUnit?_digits (Nat.lt_trans hlow (by decide)), Option.bind_eq_bind,
        Option.bind_some]
      rw [if_pos (.inl (by omega)), Char.ofNat_toNat]
      rfl
  · next hlow => exact stringBody_cons hquote hslash hlow cs

/-- A quoted string is read back. -/
theorem string_quote (s : String) (rest : List Char) :
    string (quote s ++ rest) = .ok (s, rest) := by
  have hbody (cs : List Char) :
      stringBody (cs.flatMap escapeChar ++ '"' :: rest) = some (cs, rest) := by
    induction cs with
    | nil => simp [stringBody]
    | cons c cs ih =>
        rw [List.flatMap_cons, List.append_assoc, stringBody_escapeChar, ih]
        rfl
  have htext : (quote s ++ rest).drop 1 = s.toList.flatMap escapeChar ++ '"' :: rest := by
    simp [quote]
  simp only [string, htext, hbody, String.ofList_toList]

/-! ## stray bytes -/

theorem codeUnit?_stray (cs : List Char) :
    codeUnit? ('D' :: 'C' :: '0' :: '0' :: cs) = some 0xDC00 := rfl

/-- No string that is read has a stray byte in it. -/
theorem stringBody_stray (cs : List Char) : stringBody (stray ++ cs) = none := by
  have hescape : escape ('u' :: 'D' :: 'C' :: '0' :: '0' :: cs) = none := by
    simp [escape, codeUnit?_stray]
  have hslash : stringBody ('\\' :: 'u' :: 'D' :: 'C' :: '0' :: '0' :: cs) = none := by
    rw [stringBody, hescape]
    rfl
  show stringBody ('\uFFFD' :: '\\' :: 'u' :: 'D' :: 'C' :: '0' :: '0' :: cs) = none
  rw [stringBody_cons (by decide) (by decide) (by decide), hslash]
  rfl

/-- A string that is passed over may have one. -/
theorem ignoredString_stray (cs : List Char) : ignoredString (stray ++ cs) = ignoredString cs := by
  show ignoredString ('\uFFFD' :: '\\' :: 'u' :: 'D' :: 'C' :: '0' :: '0' :: cs) = _
  simp [ignoredString, codeUnit?_stray]

/-- But it escapes nothing, in either. -/
theorem escaped_stray (cs : List Char) :
    stringBody ('\\' :: (stray ++ cs)) = none ∧ ignoredString ('\\' :: (stray ++ cs)) = none := by
  have hescape : escape (stray ++ cs) = none := rfl
  constructor
  · rw [stringBody, hescape]
    rfl
  · show ignoredString ('\\' :: '\uFFFD' :: '\\' :: 'u' :: 'D' :: 'C' :: '0' :: '0' :: cs) = none
    simp [ignoredString]

end Reader

end Json

end ControlPlane
