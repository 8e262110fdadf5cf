import ControlPlane.Number.Integer

/-!
# ControlPlane.Proofs.Number.Integer

Which texts are integers.  An integer of the range is read back from its digits (`read_signed`).  A
text spells an integer if it is digits, one at least, behind a sign or none (`Spells`); it is read
if and only if it spells an integer of the range, and then as that integer (`read_eq_ok_iff`).
-/

namespace ControlPlane.Integer

/-! ## reading what was written -/

/-- The number that digits spell behind a number that was read already. -/
def extend (n : Nat) (ds : List Char) : Nat :=
  ds.foldl (fun n c => n * 10 + Decimal.digitValue c) n

theorem le_extend (n : Nat) (ds : List Char) : n ≤ extend n ds := by
  induction ds generalizing n with
  | nil => exact Nat.le_refl n
  | cons c ds ih =>
    have := ih (n * 10 + Decimal.digitValue c)
    simp only [extend, List.foldl_cons] at this ⊢
    omega

theorem readUp_eq_ok {high : Int} {ds : List Char} {n : Nat}
    (hds : ∀ c ∈ ds, Decimal.isDigit c = true) (h : (extend n ds : Int) ≤ high) :
    readUp high n ds = .ok (extend n ds) := by
  induction ds generalizing n with
  | nil => rfl
  | cons c ds ih =>
    have hle := le_extend (n * 10 + Decimal.digitValue c) ds
    have hc : Decimal.isDigit c = true := hds c List.mem_cons_self
    have hn : (n : Int) * 10 + Decimal.digitValue c ≤ high := by
      simp only [extend, List.foldl_cons] at h hle
      omega
    have := ih (n := n * 10 + Decimal.digitValue c)
      (fun c hc => hds c (List.mem_cons_of_mem _ hc)) h
    simp only [readUp, hc, Bool.not_true, Bool.false_eq_true, if_false, Int.not_lt.2 hn]
    simpa [extend] using this

theorem readDown_eq_ok {low : Int} {ds : List Char} {n : Nat}
    (hds : ∀ c ∈ ds, Decimal.isDigit c = true) (h : low ≤ -(extend n ds : Int)) :
    readDown low (-n) ds = .ok (-(extend n ds : Int)) := by
  induction ds generalizing n with
  | nil => rfl
  | cons c ds ih =>
    have hle := le_extend (n * 10 + Decimal.digitValue c) ds
    have hc : Decimal.isDigit c = true := hds c List.mem_cons_self
    have hn : low ≤ -(n : Int) * 10 - Decimal.digitValue c := by
      simp only [extend, List.foldl_cons] at h hle
      omega
    have := ih (n := n * 10 + Decimal.digitValue c)
      (fun c hc => hds c (List.mem_cons_of_mem _ hc)) h
    simp only [readDown, hc, Bool.not_true, Bool.false_eq_true, if_false, Int.not_lt.2 hn]
    have e : -(n : Int) * 10 - Decimal.digitValue c
        = -((n * 10 + Decimal.digitValue c : Nat) : Int) := by omega
    rw [e]
    simpa [extend] using this

theorem read_of_digits {low high : Int} {ds : List Char} (hne : ds ≠ [])
    (hds : ∀ c ∈ ds, Decimal.isDigit c = true) : read low high ds = readUp high 0 ds := by
  cases ds with
  | nil => exact absurd rfl hne
  | cons c ds =>
    have hc := hds c List.mem_cons_self
    have hp : c ≠ '+' := by rintro rfl; revert hc; decide
    have hm : c ≠ '-' := by rintro rfl; revert hc; decide
    unfold read
    split <;> simp_all

/-- An integer of the range is read back from its digits. -/
theorem read_signed {low high n : Int} (hl : low ≤ n) (hh : n ≤ high) :
    read low high (Decimal.signed n) = .ok n := by
  cases n with
  | ofNat n =>
    have hds : ∀ c ∈ Decimal.digits n, Decimal.isDigit c = true :=
      fun c hc => Decimal.isDigit_of_mem_digits hc
    have hv : extend 0 (Decimal.digits n) = n := Decimal.value_digits n
    rw [Decimal.signed, read_of_digits (Decimal.digits_ne_nil n) hds]
    have : readUp high (0 : Nat) (Decimal.digits n) = .ok (extend 0 (Decimal.digits n)) :=
      readUp_eq_ok hds (by rw [hv]; exact hh)
    rw [hv] at this
    exact this
  | negSucc n =>
    have hds : ∀ c ∈ Decimal.digits (n + 1), Decimal.isDigit c = true :=
      fun c hc => Decimal.isDigit_of_mem_digits hc
    have hv : extend 0 (Decimal.digits (n + 1)) = n + 1 := Decimal.value_digits (n + 1)
    have hne := Decimal.digits_ne_nil (n + 1)
    have hread : read low high ('-' :: Decimal.digits (n + 1))
        = readDown low 0 (Decimal.digits (n + 1)) := by
      unfold read
      split <;> simp_all
    have : readDown low (-(0 : Nat)) (Decimal.digits (n + 1))
        = .ok (-(extend 0 (Decimal.digits (n + 1)) : Int)) :=
      readDown_eq_ok hds (by rw [hv]; omega)
    rw [hv] at this
    rw [Decimal.signed, hread]
    have e : Int.negSucc n = -((n + 1 : Nat) : Int) := by omega
    rw [e]
    exact this

theorem readInt32_signed (v : Int32) : readInt32 (Decimal.signed v.toInt) = .ok v := by
  rw [readInt32, read_signed (Int32.minValue_le_toInt v) (Int32.toInt_le v)]
  simp [Except.map]

theorem isDigit_or_minus_of_mem_signed {n : Int} {c : Char} (h : c ∈ Decimal.signed n) :
    Decimal.isDigit c = true ∨ c = '-' := by
  cases n with
  | ofNat n => exact .inl (Decimal.isDigit_of_mem_digits h)
  | negSucc n =>
    rcases List.mem_cons.1 h with h | h
    · exact .inr h
    · exact .inl (Decimal.isDigit_of_mem_digits h)

/-! ## spelled integers -/

/-- A text spells an integer in decimal digits, which may have zeros in front. -/
inductive Spells : List Char → Int → Prop
  | plain {ds : List Char} (hne : ds ≠ []) (h : ∀ c ∈ ds, Decimal.isDigit c = true) :
    Spells ds (Decimal.value ds)
  | plus {ds : List Char} (hne : ds ≠ []) (h : ∀ c ∈ ds, Decimal.isDigit c = true) :
    Spells ('+' :: ds) (Decimal.value ds)
  | minus {ds : List Char} (hne : ds ≠ []) (h : ∀ c ∈ ds, Decimal.isDigit c = true) :
    Spells ('-' :: ds) (-(Decimal.value ds : Int))

/-! ## digits -/

/-- Digits are read upward to what they spell, if that does not leave the range. -/
theorem readUp_eq_ok_iff {high : Int} {n : Nat} (hn : (n : Int) ≤ high) {ds : List Char} {v : Int} :
    readUp high n ds = .ok v
      ↔ (∀ c ∈ ds, Decimal.isDigit c = true) ∧ v = extend n ds ∧ v ≤ high := by
  constructor
  · intro h
    induction ds generalizing n with
    | nil =>
        obtain rfl := Except.ok.inj h
        exact ⟨List.forall_mem_nil _, rfl, hn⟩
    | cons c ds ih =>
        rw [readUp] at h
        split at h
        · cases h
        · next hdigit =>
          simp only at h
          split at h
          · cases h
          · next hle =>
            obtain ⟨hds, hv, hhigh⟩ := ih (n := n * 10 + Decimal.digitValue c)
              (by push_cast; omega) (by push_cast; exact h)
            exact ⟨List.forall_mem_cons.2 ⟨by simpa using hdigit, hds⟩, hv, hhigh⟩
  · rintro ⟨hds, rfl, hhigh⟩
    exact readUp_eq_ok hds hhigh

/-- Digits are read downward to what they spell below zero, if that does not leave the range. -/
theorem readDown_eq_ok_iff {low : Int} {n : Nat} (hn : low ≤ -(n : Int)) {ds : List Char}
    {v : Int} :
    readDown low (-n) ds = .ok v
      ↔ (∀ c ∈ ds, Decimal.isDigit c = true) ∧ v = -(extend n ds : Int) ∧ low ≤ v := by
  constructor
  · intro h
    induction ds generalizing n with
    | nil =>
        obtain rfl := Except.ok.inj h
        exact ⟨List.forall_mem_nil _, rfl, hn⟩
    | cons c ds ih =>
        rw [readDown] at h
        split at h
        · cases h
        · next hdigit =>
          have hstep : -(n : Int) * 10 - Decimal.digitValue c
              = -((n * 10 + Decimal.digitValue c : Nat) : Int) := by
            push_cast
            omega
          simp only [hstep] at h
          split at h
          · cases h
          · next hle =>
            obtain ⟨hds, hv, hlow⟩ := ih (Int.not_lt.1 hle) h
            exact ⟨List.forall_mem_cons.2 ⟨by simpa using hdigit, hds⟩, hv, hlow⟩
  · rintro ⟨hds, rfl, hlow⟩
    exact readDown_eq_ok hds hlow

/-! ## signs -/

section Reading

variable {low high : Int} {ds : List Char}

theorem read_plus (hne : ds ≠ []) : read low high ('+' :: ds) = readUp high 0 ds := by
  unfold read
  split <;> simp_all

theorem read_minus (hne : ds ≠ []) : read low high ('-' :: ds) = readDown low 0 ds := by
  unfold read
  split <;> simp_all

/-- **Reading integers**: what is read is spelled, and of the range. -/
theorem read_eq_ok_iff (hlow : low ≤ 0) (hhigh : 0 ≤ high) {cs : List Char} {v : Int} :
    read low high cs = .ok v ↔ Spells cs v ∧ low ≤ v ∧ v ≤ high := by
  have hup {ds : List Char} : readUp high 0 ds = .ok v
      ↔ (∀ c ∈ ds, Decimal.isDigit c = true) ∧ v = Decimal.value ds ∧ v ≤ high :=
    readUp_eq_ok_iff (n := 0) hhigh
  have hdown {ds : List Char} : readDown low 0 ds = .ok v
      ↔ (∀ c ∈ ds, Decimal.isDigit c = true) ∧ v = -(Decimal.value ds : Int) ∧ low ≤ v :=
    readDown_eq_ok_iff (n := 0) (by simpa using hlow)
  constructor
  · intro h
    unfold read at h
    split at h
    · cases h
    · cases h
    · cases h
    · next ds hne =>
      obtain ⟨hds, rfl, hle⟩ := hup.1 h
      exact ⟨.plus (fun hnil => hne (by rw [hnil])) hds, by omega, hle⟩
    · next ds hne =>
      obtain ⟨hds, rfl, hle⟩ := hdown.1 h
      exact ⟨.minus (fun hnil => hne (by rw [hnil])) hds, hle, by omega⟩
    · next hne _ _ _ _ =>
      obtain ⟨hds, rfl, hle⟩ := hup.1 h
      exact ⟨.plain hne hds, by omega, hle⟩
  · rintro ⟨hspells, hle, hge⟩
    cases hspells with
    | plain hne hds =>
        rw [read_of_digits hne hds]
        exact hup.2 ⟨hds, rfl, hge⟩
    | plus hne hds =>
        rw [read_plus hne]
        exact hup.2 ⟨hds, rfl, hge⟩
    | minus hne hds =>
        rw [read_minus hne]
        exact hdown.2 ⟨hds, rfl, hle⟩

end Reading

/-- A text is an integer of 32 bits if it spells one. -/
theorem readInt32_eq_ok_iff {cs : List Char} {v : Int32} :
    readInt32 cs = .ok v ↔ Spells cs v.toInt := by
  have hread (n : Int) : read Int32.minValue.toInt Int32.maxValue.toInt cs = .ok n
      ↔ Spells cs n ∧ Int32.minValue.toInt ≤ n ∧ n ≤ Int32.maxValue.toInt :=
    read_eq_ok_iff (by decide) (by decide)
  constructor
  · intro h
    obtain ⟨n, hn, rfl⟩ : ∃ n, read Int32.minValue.toInt Int32.maxValue.toInt cs = .ok n
        ∧ Int32.ofInt n = v := by
      rw [readInt32] at h
      cases hn : read Int32.minValue.toInt Int32.maxValue.toInt cs with
      | error fault =>
          rw [hn] at h
          cases h
      | ok n =>
          rw [hn] at h
          exact ⟨n, rfl, Except.ok.inj h⟩
    obtain ⟨hspells, hle, hge⟩ := (hread n).1 hn
    rwa [Int32.toInt_ofInt_of_le hle (Int.lt_of_le_of_lt hge (by decide))]
  · intro h
    rw [readInt32, (hread v.toInt).2 ⟨h, Int32.minValue_le_toInt v, Int32.toInt_le v⟩]
    simp [Except.map]

end ControlPlane.Integer
