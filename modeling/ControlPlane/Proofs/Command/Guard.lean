import ControlPlane.Proofs.Command.Inverse

/-!
# ControlPlane.Proofs.Command.Guard

A declared count is held against the bytes that are left before the first item is read, with a least
length for each item.  These lengths are put together from one another, and from the layouts of the
items, by hand.  A length that is too great refuses what is there; one that is too small lets room
be made for what cannot come.

They are neither: no item is written in fewer bytes, and exactly the items in which all texts and
lists are empty are written in so many (`LeastLength`).  So the guard refuses a count only if so
many items are not in any bytes of the number that is left (`Reader.GuardSound`), which fails for
every greater length (`ExactMinimum`).
-/

namespace ControlPlane

namespace Wire

variable {α β : Type}

/-! ## the guard -/

namespace Reader

theorem bind_of_ok {r : Reader α} {f : α → Reader β} {b rest : Bytes} {a : α}
    (h : r b = (.ok a, rest)) : (r >>= f) b = f a rest := by
  show Reader.bind r f b = _
  rw [Reader.bind, h]

/-- A count that is not negative is refused exactly if the bytes behind it are too few. -/
theorem count_putInt32_append (field : Field) (least : Nat) {declared : Int32} {n : Nat}
    (h : declared.toInt = n) (b : Bytes) :
    count field least (putInt32 declared ++ b)
      = if b.length < n * least then (.error (.countTooLarge field declared b.length), b)
        else (.ok n, b) := by
  have hdeclared : int32 field (putInt32 declared ++ b) = (.ok declared, b) :=
    int32_eq_ok_iff.2 rfl
  have hleft : remaining b = (.ok b.length, b) := rfl
  have hn : declared.toInt.toNat = n := by omega
  rw [count, bind_of_ok hdeclared, if_neg (by omega), bind_of_ok hleft, hn]
  by_cases hfew : b.length < n * least
  · rw [if_pos hfew, if_pos hfew]
    rfl
  · rw [if_neg hfew, if_neg hfew]
    rfl

/-- With `least` bytes for each item, the guard refuses a count of `n` only if the items cannot be
there: if it refuses `n` with some bytes behind the count, then `items` reads them off no bytes of
the same number. -/
def GuardSound (least n : Nat) (items : Reader β) : Prop :=
  ∀ (field : Field) (declared : Int32) (b : Bytes), declared.toInt = n →
    (∃ e rest, count field least (putInt32 declared ++ b) = (.error e, rest)) →
      ∀ b' : Bytes, b'.length = b.length → ¬ ∃ l rest, items b' = (.ok l, rest)

/-- A guard is sound if the items take the bytes that it asks for. -/
theorem guardSound_of_le {least n : Nat} {items : Reader β}
    (h : ∀ b l rest, items b = (.ok l, rest) → n * least ≤ b.length) :
    GuardSound least n items := by
  intro field declared b hn hrefused b' hb' hread
  obtain ⟨e, rest, hrefused⟩ := hrefused
  obtain ⟨l, rest', hread⟩ := hread
  have henough := h b' l rest' hread
  rw [count_putInt32_append field least hn, if_neg (by omega)] at hrefused
  cases hrefused

/-- A sound guard asks for no more bytes than the items are read off. -/
theorem GuardSound.le_length {least n : Nat} {items : Reader β} (h : GuardSound least n items)
    (hn : n < 2147483648) {b rest : Bytes} {l : β} (hread : items b = (.ok l, rest)) :
    n * least ≤ b.length := by
  by_contra hfew
  have hint : (Int32.ofNat n).toInt = n := Int32.toInt_ofNat_of_lt hn
  -- these bytes would be refused, in whatever field the count stands, although the items are there
  have hrefused := count_putInt32_append .storageGroupCount least hint b
  rw [if_pos (Nat.lt_of_not_le hfew)] at hrefused
  exact h _ _ b hint ⟨_, _, hrefused⟩ b rfl ⟨l, rest, hread⟩

/-- If `n` items are read off `least` bytes for each, no sound guard asks for more. -/
theorem GuardSound.le_of_length_eq {c least n : Nat} {items : Reader β} (h : GuardSound c n items)
    (hpos : 0 < n) (hn : n < 2147483648) {b rest : Bytes} {l : β}
    (hread : items b = (.ok l, rest)) (hb : b.length = n * least) : c ≤ least := by
  have hle := h.le_length hn hread
  rw [hb] at hle
  exact Nat.le_of_mul_le_mul_left hle hpos

end Reader

/-! ## least lengths -/

/-- The items that are written take `least` bytes at least, the hollow ones exactly so many, and
there are hollow ones. -/
structure LeastLength (put : α → Except EncodeError Bytes) (least : Nat) (Hollow : α → Prop) :
    Prop where
  le : ∀ a e, put a = .ok e → least ≤ e.length
  eq_iff : ∀ a e, put a = .ok e → (e.length = least ↔ Hollow a)
  exists_hollow : ∃ a e, put a = .ok e ∧ Hollow a

variable {put : α → Except EncodeError Bytes} {least : Nat} {Hollow : α → Prop}

/-- Bytes that begin with the written forms of items have room for the least length of each. -/
theorem LeastLength.mul_le_length (h : LeastLength put least Hollow) {l : List α} {e : Bytes}
    (he : putMany put l = .ok e) (rest : Bytes) : l.length * least ≤ (e ++ rest).length := by
  rw [List.length_append]
  exact Nat.le_add_right_of_le (length_le_putMany h.le he)

/-- Any number of items can be written in the least length for each. -/
theorem LeastLength.exists_putMany (h : LeastLength put least Hollow) (n : Nat) :
    ∃ l e, l.length = n ∧ putMany put l = .ok e ∧ e.length = n * least := by
  obtain ⟨a, head, hhead, hollow⟩ := h.exists_hollow
  induction n with
  | zero => exact ⟨[], [], rfl, rfl, (Nat.zero_mul least).symm⟩
  | succ n ih =>
      obtain ⟨l, tail, hlen, htail, hlength⟩ := ih
      refine ⟨a :: l, head ++ tail, by rw [List.length_cons, hlen],
        putMany_cons_eq_ok_iff.2 ⟨head, tail, hhead, htail, rfl⟩, ?_⟩
      rw [List.length_append, (h.eq_iff a head hhead).2 hollow, hlength, Nat.succ_mul, Nat.add_comm]

/-- A number of bytes is the exact minimum for the items that a reader reads and a writer writes. -/
structure ExactMinimum (item : Reader α) (put : α → Except EncodeError Bytes) (least : Nat)
    (Hollow : α → Prop) : Prop where
  /-- Each item that is read takes so many bytes at least, and no more exactly if it is hollow. -/
  taken : ∀ b a rest, item b = (.ok a, rest) →
    ∃ taken, b = taken ++ rest ∧ least ≤ taken.length ∧ (taken.length = least ↔ Hollow a)
  /-- A count that is refused for this minimum is one of items that cannot come. -/
  sound : ∀ n, Reader.GuardSound least n (Reader.many item n)
  /-- Any number of items can be written in the minimum for each. -/
  attained : ∀ n, ∃ l e, l.length = n ∧ putMany put l = .ok e ∧ e.length = n * least
  /-- For a greater number the guard refuses items that are there, whatever the count. -/
  greatest : ∀ c n, 0 < n → n < 2147483648 → Reader.GuardSound c n (Reader.many item n) → c ≤ least

/-- The least length of the written forms is the exact minimum for a reader that inverts the
writer. -/
theorem LeastLength.exactMinimum (h : LeastLength put least Hollow) {item : Reader α}
    (hitem : item.Inverts put) : ExactMinimum item put least Hollow where
  taken b a rest hread := by
    obtain ⟨e, he, rfl⟩ := (hitem b a rest).1 hread
    exact ⟨e, rfl, h.le a e he, h.eq_iff a e he⟩
  sound n := by
    refine Reader.guardSound_of_le fun b l rest hread => ?_
    obtain ⟨rfl, e, he, rfl⟩ := (Reader.many_eq_ok_iff hitem).1 hread
    exact h.mul_le_length he rest
  attained := h.exists_putMany
  greatest c n hpos hn hsound := by
    obtain ⟨l, e, hlen, he, hlength⟩ := h.exists_putMany n
    have hread : Reader.many item n e = (.ok l, []) :=
      (Reader.many_eq_ok_iff hitem).2 ⟨hlen, e, he, (List.append_nil e).symm⟩
    exact hsound.le_of_length_eq hpos hn hread hlength

/-! ## empty texts and lists -/

theorem length_putText {field : Field} {s : String} {e : Bytes} (h : putText field s = .ok e) :
    e.length = 4 + (Utf8.encode s).length := by
  obtain ⟨-, rfl⟩ := putText_eq_ok_iff.1 h
  rw [List.length_append, length_putInt32]

/-- Only the empty text has no bytes. -/
theorem length_utf8_eq_zero_iff {s : String} : (Utf8.encode s).length = 0 ↔ s = "" := by
  rw [Utf8.length_encode, String.utf8ByteSize_eq_zero_iff]

/-- Only the empty list has no bytes, if each item has some. -/
theorem length_putMany_eq_zero_iff (h : ∀ a e, put a = .ok e → least ≤ e.length)
    (hpos : 0 < least) {l : List α} {e : Bytes} (he : putMany put l = .ok e) :
    e.length = 0 ↔ l = [] := by
  constructor
  · intro hzero
    have hle := length_le_putMany h he
    rw [hzero, Nat.le_zero, Nat.mul_eq_zero] at hle
    exact List.length_eq_zero_iff.1 (hle.resolve_right (Nat.ne_of_gt hpos))
  · intro hl
    subst hl
    cases he
    rfl

end Wire

open Wire

/-! ## the layouts -/

/-- A group id has neither texts nor lists. -/
theorem GroupId.leastLength : LeastLength GroupId.encode GroupId.minLength fun _ => True where
  le g e h := by
    cases h
    exact Nat.le_refl 8
  eq_iff g e h := by
    cases h
    exact iff_of_true rfl trivial
  exists_hollow := ⟨⟨.schemaRegion, 0⟩, _, rfl, trivial⟩

theorem Endpoint.length_encode {p : Endpoint} {e : Bytes} (h : p.encode = .ok e) :
    e.length = Endpoint.minLength + (Utf8.encode p.ip).length := by
  obtain ⟨ip, hip, rfl⟩ := Endpoint.encode_eq_ok_iff.1 h
  rw [List.length_append, length_putText hip, length_putInt32, Endpoint.minLength]
  omega

theorem Endpoint.leastLength :
    LeastLength Endpoint.encode Endpoint.minLength fun p => p.ip = "" where
  le p e h := by
    rw [length_encode h]
    exact Nat.le_add_right _ _
  eq_iff p e h := by
    rw [length_encode h, Nat.add_eq_left, length_utf8_eq_zero_iff]
  exists_hollow := ⟨⟨"", 0⟩, _, rfl, rfl⟩

theorem Location.leastLength :
    LeastLength Location.encode Location.minLength fun l => l.internalEndpoint.ip = "" where
  le := Location.minLength_le
  eq_iff l e h := by
    obtain ⟨endpoint, hendpoint, rfl⟩ := Location.encode_eq_ok_iff.1 h
    rw [List.length_append, length_putInt32, Location.minLength, Nat.add_left_cancel_iff]
    exact Endpoint.leastLength.eq_iff _ _ hendpoint
  exists_hollow := ⟨⟨0, ⟨"", 0⟩⟩, _, rfl, rfl⟩

/-- Without locations there are no texts either. -/
theorem ReplicaSet.leastLength :
    LeastLength ReplicaSet.encode ReplicaSet.minLength fun r => r.locations = [] where
  le := ReplicaSet.minLength_le
  eq_iff r e h := by
    obtain ⟨id, locations, hid, -, hlocations, rfl⟩ := ReplicaSet.encode_eq_ok_iff.1 h
    have hempty := length_putMany_eq_zero_iff Location.minLength_le (by decide) hlocations
    have hidLength := (GroupId.leastLength.eq_iff _ _ hid).2 trivial
    rw [← hempty, List.length_append, List.length_append, length_putInt32, hidLength,
      ReplicaSet.minLength]
    omega
  exists_hollow := ⟨⟨⟨.schemaRegion, 0⟩, []⟩, _, rfl, rfl⟩

namespace RegionGroupMap

theorem leastLength :
    LeastLength encodeEntry minEntryLength fun p => p.1 = "" ∧ p.2 = [] where
  le := minEntryLength_le
  eq_iff p e h := by
    obtain ⟨name, sets, hname, -, hsets, rfl⟩ := encodeEntry_eq_ok_iff.1 h
    have hempty := length_putMany_eq_zero_iff ReplicaSet.minLength_le (by decide) hsets
    rw [← length_utf8_eq_zero_iff, ← hempty, List.length_append, List.length_append,
      length_putInt32, length_putText hname, minEntryLength]
    omega
  exists_hollow := ⟨("", []), _, rfl, rfl, rfl⟩

/-- The entry that is read behind those of a map, and the bytes that it takes. -/
theorem taken_of_entriesReader_one {m m' : RegionGroupMap} {b rest : Bytes}
    (h : entriesReader 1 m b = (.ok m', rest)) :
    ∃ name sets taken, m'.entries = m.entries ++ [(name, sets)] ∧ b = taken ++ rest ∧
      minEntryLength ≤ taken.length ∧ (taken.length = minEntryLength ↔ name = "" ∧ sets = []) := by
  obtain ⟨l, e, hlen, hm, he, rfl⟩ := entriesReader_eq_ok_iff.1 h
  obtain ⟨p, rfl⟩ := List.length_eq_one_iff.1 hlen
  obtain ⟨head, tail, hhead, htail, rfl⟩ := putMany_cons_eq_ok_iff.1 he
  cases htail
  rw [List.append_nil]
  exact ⟨p.1, p.2, head, hm, rfl, leastLength.le p head hhead, leastLength.eq_iff p head hhead⟩

/-- Entries that are read behind those of a map take their least length each. -/
theorem le_length_of_entriesReader {n : Nat} {m m' : RegionGroupMap} {b rest : Bytes}
    (h : entriesReader n m b = (.ok m', rest)) : n * minEntryLength ≤ b.length := by
  obtain ⟨l, e, rfl, -, he, rfl⟩ := entriesReader_eq_ok_iff.1 h
  exact leastLength.mul_le_length he rest

/-- A name without characters, and no replica sets. -/
def hollowEntry : Bytes := [0, 0, 0, 0, 0, 0, 0, 0]

theorem entriesReader_hollowEntry (rest : Bytes) :
    entriesReader 1 SortedMap.empty (hollowEntry ++ rest)
      = (.ok (SortedMap.empty.insert "" []), rest) :=
  entriesReader_eq_ok_iff.2 ⟨[("", [])], hollowEntry, rfl, rfl, rfl, rfl⟩

end RegionGroupMap

/-! ## the guards of the wire format -/

open RegionGroupMap

/-- **The guard refuses only the impossible**.  Each least length that a count is held against is
the exact minimum of an item: of a group id, an endpoint, a location, a replica set, and an entry of
a storage group, whatever entries were read before it.  So where a count is refused, so many items
are not in any bytes of the number that is left; and with a greater length the guard would refuse
items that are there. -/
theorem guard_refuses_only_impossible :
    ExactMinimum GroupId.reader GroupId.encode GroupId.minLength (fun _ => True) ∧
    ExactMinimum Endpoint.reader Endpoint.encode Endpoint.minLength (fun p => p.ip = "") ∧
    ExactMinimum Location.reader Location.encode Location.minLength
      (fun l => l.internalEndpoint.ip = "") ∧
    ExactMinimum ReplicaSet.reader ReplicaSet.encode ReplicaSet.minLength
      (fun r => r.locations = []) ∧
    (∀ (m m' : RegionGroupMap) (b rest : Bytes), entriesReader 1 m b = (.ok m', rest) →
      ∃ name sets taken, m'.entries = m.entries ++ [(name, sets)] ∧ b = taken ++ rest ∧
        minEntryLength ≤ taken.length ∧
        (taken.length = minEntryLength ↔ name = "" ∧ sets = [])) ∧
    (∀ (n : Nat) (m : RegionGroupMap), Reader.GuardSound minEntryLength n (entriesReader n m)) ∧
    (∀ c : Nat, Reader.GuardSound c 1 (entriesReader 1 SortedMap.empty) → c ≤ minEntryLength) := by
  refine ⟨GroupId.leastLength.exactMinimum GroupId.reader_inverts,
    Endpoint.leastLength.exactMinimum Endpoint.reader_inverts,
    Location.leastLength.exactMinimum Location.reader_inverts,
    ReplicaSet.leastLength.exactMinimum ReplicaSet.reader_inverts, ?_, ?_, ?_⟩
  · intro m m' b rest h
    exact taken_of_entriesReader_one h
  · intro n m
    exact Reader.guardSound_of_le fun b m' rest h => le_length_of_entriesReader h
  · intro c hc
    have hread := entriesReader_hollowEntry []
    exact hc.le_of_length_eq Nat.one_pos (by decide) hread rfl

/-- Two storage groups are refused in fifteen bytes, and two locations in twenty-three; one storage
group takes eight, so nine would be too many to ask for. -/
theorem guard_refuses_only_impossible_two :
    (∃ e rest, Reader.count .storageGroupCount minEntryLength
        (putInt32 2 ++ (hollowEntry ++ [0, 0, 0, 0, 0, 0, 0])) = (.error e, rest)) ∧
      (∀ b : Bytes, b.length = 15 →
        ¬ ∃ m rest, entriesReader 2 SortedMap.empty b = (.ok m, rest)) ∧
    (∃ name sets taken, (SortedMap.empty.insert "" [] : RegionGroupMap).entries = [(name, sets)] ∧
      hollowEntry ++ [0, 0, 0, 0, 0, 0, 0] = taken ++ [0, 0, 0, 0, 0, 0, 0] ∧
      minEntryLength ≤ taken.length ∧ (taken.length = minEntryLength ↔ name = "" ∧ sets = [])) ∧
    ¬ Reader.GuardSound 9 1 (entriesReader 1 SortedMap.empty) ∧
    (∃ e rest, Reader.count .locationCount Location.minLength
        (putInt32 2 ++ List.replicate 23 0) = (.error e, rest)) ∧
      (∀ b : Bytes, b.length = 23 →
        ¬ ∃ l rest, Reader.many Location.reader 2 b = (.ok l, rest)) := by
  obtain ⟨-, -, hlocation, -, htaken, hsound, hgreatest⟩ := guard_refuses_only_impossible
  have hentries : ∃ e rest, Reader.count .storageGroupCount minEntryLength
      (putInt32 2 ++ (hollowEntry ++ [0, 0, 0, 0, 0, 0, 0])) = (.error e, rest) := ⟨_, _, rfl⟩
  have hlocations : ∃ e rest, Reader.count .locationCount Location.minLength
      (putInt32 2 ++ List.replicate 23 0) = (.error e, rest) := ⟨_, _, rfl⟩
  exact ⟨hentries, hsound 2 SortedMap.empty _ _ _ rfl hentries,
    htaken SortedMap.empty _ _ _ (entriesReader_hollowEntry _),
    fun hnine => absurd (hgreatest 9 hnine) (by decide), hlocations,
    hlocation.sound 2 _ _ _ rfl hlocations⟩

end ControlPlane
