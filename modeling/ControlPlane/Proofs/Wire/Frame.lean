import ControlPlane.Wire.Frame

/-!
# ControlPlane.Proofs.Wire.Frame

The laws of the framing.  A reader *inverts* a writer if it succeeds exactly on what the writer
writes, followed by anything, and leaves what follows.  The one statement holds both directions:
what was written is read back whatever stands behind it, and whatever is read was written so.
Integers, texts and runs of items are inverted here; a declared count is checked against the bytes
left (`count_eq_ok_iff`), which costs no written form because each item has its least length
(`length_le_putMany`).
-/

namespace ControlPlane.Wire

/-! ## integers -/

@[simp] theorem length_putInt32 (v : Int32) : (putInt32 v).length = 4 := rfl

@[simp] theorem length_putInt64 (v : Int64) : (putInt64 v).length = 8 := rfl

theorem bigEndian_putInt32 (v : Int32) : bigEndian (putInt32 v) = v.toUInt32.toNat := by
  have hlt := v.toUInt32.toNat_lt
  simp only [bigEndian, putInt32, List.foldl_cons, List.foldl_nil, UInt8.toNat_ofNat']
  omega

theorem bigEndian_putInt64 (v : Int64) : bigEndian (putInt64 v) = v.toUInt64.toNat := by
  have hlt := v.toUInt64.toNat_lt
  simp only [bigEndian, putInt64, List.foldl_cons, List.foldl_nil, UInt8.toNat_ofNat']
  omega

/-- Four bytes are the integer that they spell. -/
theorem putInt32_bigEndian {b : Bytes} (h : b.length = 4) :
    putInt32 (UInt32.ofNat (bigEndian b)).toInt32 = b := by
  obtain ⟨b₀, b₁, b₂, b₃, rfl⟩ : ∃ b₀ b₁ b₂ b₃, b = [b₀, b₁, b₂, b₃] := by
    match b, h with
    | [b₀, b₁, b₂, b₃], _ => exact ⟨b₀, b₁, b₂, b₃, rfl⟩
  have h₀ := b₀.toNat_lt
  have h₁ := b₁.toNat_lt
  have h₂ := b₂.toNat_lt
  have h₃ := b₃.toNat_lt
  simp only [putInt32, bigEndian, List.foldl_cons, List.foldl_nil, UInt32.toUInt32_toInt32,
    UInt32.toNat_ofNat', List.cons.injEq, ← UInt8.toNat_inj, UInt8.toNat_ofNat', and_true]
  omega

/-- Eight bytes are the integer that they spell. -/
theorem putInt64_bigEndian {b : Bytes} (h : b.length = 8) :
    putInt64 (UInt64.ofNat (bigEndian b)).toInt64 = b := by
  obtain ⟨b₀, b₁, b₂, b₃, b₄, b₅, b₆, b₇, rfl⟩ :
      ∃ b₀ b₁ b₂ b₃ b₄ b₅ b₆ b₇, b = [b₀, b₁, b₂, b₃, b₄, b₅, b₆, b₇] := by
    match b, h with
    | [b₀, b₁, b₂, b₃, b₄, b₅, b₆, b₇], _ => exact ⟨b₀, b₁, b₂, b₃, b₄, b₅, b₆, b₇, rfl⟩
  have h₀ := b₀.toNat_lt
  have h₁ := b₁.toNat_lt
  have h₂ := b₂.toNat_lt
  have h₃ := b₃.toNat_lt
  have h₄ := b₄.toNat_lt
  have h₅ := b₅.toNat_lt
  have h₆ := b₆.toNat_lt
  have h₇ := b₇.toNat_lt
  simp only [putInt64, bigEndian, List.foldl_cons, List.foldl_nil, UInt64.toUInt64_toInt64,
    UInt64.toNat_ofNat', List.cons.injEq, ← UInt8.toNat_inj, UInt8.toNat_ofNat', and_true]
  omega

/-- Of two runs of bytes behind a number each, the numbers that they spell are in the order of the
numbers and, behind the same one, of the bytes. -/
theorem bigEndian_behind_lt_iff {a b : Bytes} (h : a.length = b.length) (m n : Nat) :
    a.foldl (fun n x => n * 256 + x.toNat) m < b.foldl (fun n x => n * 256 + x.toNat) n ↔
      m < n ∨ m = n ∧ a < b := by
  induction a generalizing b m n with
  | nil =>
      cases List.length_eq_zero_iff.1 h.symm
      simp
  | cons x a ih =>
      cases b with
      | nil => cases h
      | cons y b =>
          have hx := x.toNat_lt
          have hy := y.toNat_lt
          have hlt : m * 256 + x.toNat < n * 256 + y.toNat ↔
              m < n ∨ m = n ∧ x.toNat < y.toNat := by omega
          have heq : m * 256 + x.toNat = n * 256 + y.toNat ↔ m = n ∧ x.toNat = y.toNat := by omega
          rw [List.foldl_cons, List.foldl_cons, ih (Nat.succ.inj h), hlt, heq,
            List.cons_lt_cons_iff, UInt8.lt_iff_toNat_lt, ← UInt8.toNat_inj, and_assoc, or_assoc,
            ← and_or_left]

/-- Numbers of the same length are in the order of their bytes. -/
theorem bigEndian_lt_iff {a b : Bytes} (h : a.length = b.length) :
    bigEndian a < bigEndian b ↔ a < b := by
  have hbehind := bigEndian_behind_lt_iff h 0 0
  simpa [bigEndian] using hbehind

/-! ## sequencing -/

/-- A computation that may fail succeeds as its steps do. -/
theorem except_bind_eq_ok_iff {ε α β : Type} {x : Except ε α} {f : α → Except ε β} {c : β} :
    (x >>= f) = .ok c ↔ ∃ a, x = .ok a ∧ f a = .ok c := by
  cases x with
  | error e => simp [bind, Except.bind]
  | ok a => simp [bind, Except.bind]

theorem except_pure_eq_ok_iff {ε α : Type} {a c : α} :
    (pure a : Except ε α) = .ok c ↔ c = a := by
  simp [pure, Except.pure, eq_comm]

namespace Reader

variable {α β : Type}

@[simp] theorem pure_eq_ok_iff {a c : α} {b rest : Bytes} :
    (pure a : Reader α) b = (.ok c, rest) ↔ a = c ∧ b = rest := by
  show (Except.ok a, b) = _ ↔ _
  simp

@[simp] theorem fail_eq_ok_iff {e : DecodeError} {c : α} {b rest : Bytes} :
    (fail e : Reader α) b = (.ok c, rest) ↔ False := by
  simp [fail]

@[simp] theorem remaining_eq_ok_iff {n : Nat} {b rest : Bytes} :
    remaining b = (.ok n, rest) ↔ b.length = n ∧ b = rest := by
  simp [remaining]

/-- Two readers in a row succeed if the first does, and the second on what is left. -/
theorem bind_eq_ok_iff {r : Reader α} {f : α → Reader β} {c : β} {b rest : Bytes} :
    (r >>= f) b = (.ok c, rest) ↔ ∃ a mid, r b = (.ok a, mid) ∧ f a mid = (.ok c, rest) := by
  show Reader.bind r f b = _ ↔ _
  rw [Reader.bind]
  cases h : r b with
  | mk result mid =>
      cases result with
      | error e => simp
      | ok a =>
          constructor
          · intro hf
            exact ⟨a, mid, rfl, hf⟩
          · intro h
            obtain ⟨a', mid', heq, hf⟩ := h
            cases heq
            exact hf

/-- Two readers in a row fail if the first does, or the second on what is left. -/
theorem bind_eq_error_iff {r : Reader α} {f : α → Reader β} {e : DecodeError} {b rest : Bytes} :
    (r >>= f) b = (.error e, rest) ↔
      r b = (.error e, rest) ∨ ∃ a mid, r b = (.ok a, mid) ∧ f a mid = (.error e, rest) := by
  show Reader.bind r f b = _ ↔ _
  rw [Reader.bind]
  cases h : r b with
  | mk result mid =>
      cases result with
      | error e' => simp
      | ok a =>
          constructor
          · intro hf
            exact .inr ⟨a, mid, rfl, hf⟩
          · intro h
            obtain h | ⟨a', mid', heq, hf⟩ := h
            · cases h
            · cases heq
              exact hf

/-- A fixed-size field is its bytes. -/
theorem fixed_eq_ok_iff {field : Field} {n : Nat} {b raw rest : Bytes} :
    fixed field n b = (.ok raw, rest) ↔ raw.length = n ∧ b = raw ++ rest := by
  rw [fixed]
  split
  · next h =>
      simp only [Prod.mk.injEq, reduceCtorEq, false_and, false_iff, not_and]
      intro hlen hb
      simp only [hb, List.length_append] at h
      omega
  · next h =>
      simp only [Prod.mk.injEq, Except.ok.injEq]
      constructor
      · intro h
        obtain ⟨rfl, rfl⟩ := h
        exact ⟨by rw [List.length_take]; omega, (List.take_append_drop n b).symm⟩
      · intro h
        obtain ⟨rfl, rfl⟩ := h
        exact ⟨List.take_left, List.drop_left⟩

/-- A 32-bit integer is its four bytes. -/
theorem int32_eq_ok_iff {field : Field} {v : Int32} {b rest : Bytes} :
    int32 field b = (.ok v, rest) ↔ b = putInt32 v ++ rest := by
  simp only [int32, bind_eq_ok_iff, fixed_eq_ok_iff, pure_eq_ok_iff]
  constructor
  · intro h
    obtain ⟨raw, mid, ⟨hlen, rfl⟩, rfl, rfl⟩ := h
    rw [putInt32_bigEndian hlen]
  · intro h
    subst h
    exact ⟨putInt32 v, rest, ⟨rfl, rfl⟩, by simp [bigEndian_putInt32], rfl⟩

/-- A 64-bit integer is its eight bytes. -/
theorem int64_eq_ok_iff {field : Field} {v : Int64} {b rest : Bytes} :
    int64 field b = (.ok v, rest) ↔ b = putInt64 v ++ rest := by
  simp only [int64, bind_eq_ok_iff, fixed_eq_ok_iff, pure_eq_ok_iff]
  constructor
  · intro h
    obtain ⟨raw, mid, ⟨hlen, rfl⟩, rfl, rfl⟩ := h
    rw [putInt64_bigEndian hlen]
  · intro h
    subst h
    exact ⟨putInt64 v, rest, ⟨rfl, rfl⟩, by simp [bigEndian_putInt64], rfl⟩

end Reader

/-! ## counts -/

/-- A length is written exactly if it fits its field. -/
theorem putLength_eq_ok_iff {field : Field} {n : Nat} {e : Bytes} :
    putLength field n = .ok e ↔ n < 2147483648 ∧ e = putInt32 (Int32.ofNat n) := by
  rw [putLength]
  split
  · next h => simp [h, eq_comm]
  · next h => simp [h]

/-- A count is accepted exactly if it fits its field and the bytes left could hold the items. -/
theorem Reader.count_eq_ok_iff {field : Field} {least n : Nat} {b rest : Bytes} :
    Reader.count field least b = (.ok n, rest) ↔
      n < 2147483648 ∧ n * least ≤ rest.length ∧ b = putInt32 (Int32.ofNat n) ++ rest := by
  simp only [count, bind_eq_ok_iff, int32_eq_ok_iff]
  constructor
  · intro h
    obtain ⟨declared, mid, rfl, h⟩ := h
    split at h
    · simp at h
    · next hneg =>
        simp only [bind_eq_ok_iff, remaining_eq_ok_iff] at h
        obtain ⟨left, mid', ⟨rfl, rfl⟩, h⟩ := h
        split at h
        · simp at h
        · next hfit =>
            obtain ⟨rfl, rfl⟩ := pure_eq_ok_iff.1 h
            have hlt := declared.toInt_lt
            have hdeclared : Int32.ofNat declared.toInt.toNat = declared :=
              Int32.ofNat_toNatClampNeg declared (Int32.le_iff_toInt_le.2 (by simpa using hneg))
            exact ⟨by omega, by omega, by rw [hdeclared]⟩
  · intro h
    obtain ⟨hn, hfit, rfl⟩ := h
    refine ⟨Int32.ofNat n, rest, rfl, ?_⟩
    have hint : (Int32.ofNat n).toInt = n := Int32.toInt_ofNat_of_lt hn
    rw [if_neg (by omega), bind_eq_ok_iff]
    refine ⟨rest.length, rest, remaining_eq_ok_iff.2 ⟨rfl, rfl⟩, ?_⟩
    rw [hint, Int.toNat_natCast, if_neg (by omega)]
    exact pure_eq_ok_iff.2 ⟨rfl, rfl⟩

/-! ## readers that invert writers -/

/-- A reader inverts a writer if it succeeds exactly on what the writer writes, with anything
behind it, and leaves what stands behind. -/
def Reader.Inverts {α : Type} (r : Reader α) (put : α → Except EncodeError Bytes) : Prop :=
  ∀ (b : Bytes) (a : α) (rest : Bytes),
    r b = (.ok a, rest) ↔ ∃ e, put a = .ok e ∧ b = e ++ rest

/-- A text is written exactly if its bytes fit their length field. -/
theorem putText_eq_ok_iff {field : Field} {s : String} {e : Bytes} :
    putText field s = .ok e ↔ (Utf8.encode s).length < 2147483648 ∧
      e = putInt32 (Int32.ofNat (Utf8.encode s).length) ++ Utf8.encode s := by
  simp only [putText, except_bind_eq_ok_iff, putLength_eq_ok_iff]
  constructor
  · intro h
    obtain ⟨length, ⟨hfit, rfl⟩, h⟩ := h
    cases h
    exact ⟨hfit, rfl⟩
  · intro h
    obtain ⟨hfit, rfl⟩ := h
    exact ⟨_, ⟨hfit, rfl⟩, rfl⟩

/-- The text reader inverts the text writer. -/
theorem Reader.text_inverts (field : Field) : (Reader.text field).Inverts (putText field) := by
  intro b s rest
  simp only [text, bind_eq_ok_iff, count_eq_ok_iff, putText_eq_ok_iff]
  constructor
  · intro h
    obtain ⟨n, mid, ⟨hn, hfit, rfl⟩, raw, mid', hraw, h⟩ := h
    cases hraw
    cases hs : Utf8.decode? (mid.take n) with
    | none => simp [hs] at h
    | some s' =>
        simp only [hs, pure_eq_ok_iff] at h
        obtain ⟨rfl, rfl⟩ := h
        have hbytes := Utf8.encode_of_decode? hs
        have hlen : (Utf8.encode s').length = n := by
          rw [hbytes, List.length_take]
          omega
        refine ⟨_, ⟨by omega, rfl⟩, ?_⟩
        rw [hlen, hbytes, List.append_assoc, List.take_append_drop]
  · intro h
    obtain ⟨e, ⟨hn, rfl⟩, rfl⟩ := h
    refine ⟨_, _, ⟨hn, ?_, List.append_assoc _ _ _⟩, Utf8.encode s, rest, ?_, ?_⟩
    · simp
    · simp [take]
    · rw [Utf8.decode?_encode]
      exact pure_eq_ok_iff.2 ⟨rfl, rfl⟩

section Many

variable {α : Type} {put : α → Except EncodeError Bytes} {item : Reader α}

/-- A run of items is written item by item. -/
theorem putMany_cons_eq_ok_iff {a : α} {l : List α} {e : Bytes} :
    putMany put (a :: l) = .ok e ↔
      ∃ head tail, put a = .ok head ∧ putMany put l = .ok tail ∧ e = head ++ tail := by
  simp only [putMany, except_bind_eq_ok_iff]
  constructor
  · intro h
    obtain ⟨head, hhead, tail, htail, h⟩ := h
    cases h
    exact ⟨head, tail, hhead, htail, rfl⟩
  · intro h
    obtain ⟨head, tail, hhead, htail, rfl⟩ := h
    exact ⟨head, hhead, tail, htail, rfl⟩

/-- Two runs of items in a row are one run. -/
theorem putMany_append {l l' : List α} {e e' : Bytes} (h : putMany put l = .ok e)
    (h' : putMany put l' = .ok e') : putMany put (l ++ l') = .ok (e ++ e') := by
  induction l generalizing e with
  | nil =>
      cases h
      exact h'
  | cons a l ih =>
      obtain ⟨head, tail, hhead, htail, rfl⟩ := putMany_cons_eq_ok_iff.1 h
      exact putMany_cons_eq_ok_iff.2 ⟨head, tail ++ e', hhead, ih htail, List.append_assoc _ _ _⟩

/-- A run of items is inverted if one item is. -/
theorem Reader.many_eq_ok_iff (h : item.Inverts put) {n : Nat} {l : List α} {b rest : Bytes} :
    Reader.many item n b = (.ok l, rest) ↔
      l.length = n ∧ ∃ e, putMany put l = .ok e ∧ b = e ++ rest := by
  induction n generalizing b l rest with
  | zero =>
      simp only [many, pure_eq_ok_iff, List.length_eq_zero_iff]
      constructor
      · intro h
        obtain ⟨rfl, rfl⟩ := h
        exact ⟨rfl, [], rfl, rfl⟩
      · intro h
        obtain ⟨rfl, e, he, rfl⟩ := h
        cases he
        exact ⟨rfl, rfl⟩
  | succ n ih =>
      simp only [many, bind_eq_ok_iff, h _ _ _, ih, pure_eq_ok_iff]
      constructor
      · intro h
        obtain ⟨a, _, ⟨head, hhead, rfl⟩, l, _, ⟨rfl, tail, htail, rfl⟩, rfl, rfl⟩ := h
        exact ⟨rfl, head ++ tail, putMany_cons_eq_ok_iff.2 ⟨head, tail, hhead, htail, rfl⟩,
          (List.append_assoc _ _ _).symm⟩
      · intro h
        obtain ⟨hlen, e, he, rfl⟩ := h
        cases l with
        | nil => simp at hlen
        | cons a l =>
            obtain ⟨head, tail, hhead, htail, rfl⟩ := putMany_cons_eq_ok_iff.1 he
            exact ⟨a, _, ⟨head, hhead, List.append_assoc _ _ _⟩, l, rest,
              ⟨by simpa using hlen, tail, htail, rfl⟩, rfl, rfl⟩

/-- A run of items takes the least length of an item for each of them. -/
theorem length_le_putMany {least : Nat} (h : ∀ a e, put a = .ok e → least ≤ e.length)
    {l : List α} {e : Bytes} (he : putMany put l = .ok e) : l.length * least ≤ e.length := by
  induction l generalizing e with
  | nil => simp
  | cons a l ih =>
      obtain ⟨head, tail, hhead, htail, rfl⟩ := putMany_cons_eq_ok_iff.1 he
      have h₁ := h a head hhead
      have h₂ := ih htail
      rw [List.length_cons, Nat.succ_mul, List.length_append]
      omega

end Many

end ControlPlane.Wire
