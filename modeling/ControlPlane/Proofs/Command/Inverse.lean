import ControlPlane.Command.Wire
import ControlPlane.Proofs.SortedMap
import ControlPlane.Proofs.Wire.Frame

/-!
# ControlPlane.Proofs.Command.Inverse

Every reader of the wire format inverts its encoder, from group ids up to whole commands.  The
declared counts never refuse a written form because each item takes at least its least length
(`minLength_le`), and the order of storage groups is both what the reader demands and what a sorted
map provides (`entriesReader_eq_ok_iff`).
-/

namespace ControlPlane

open Wire

/-! ## region groups -/

theorem GroupId.reader_inverts : GroupId.reader.Inverts GroupId.encode := by
  intro b g rest
  simp only [reader, Reader.bind_eq_ok_iff, Reader.int32_eq_ok_iff]
  constructor
  · intro h
    obtain ⟨code, mid, rfl, h⟩ := h
    cases ht : GroupType.ofCode? code with
    | none => simp [ht] at h
    | some t =>
        simp only [ht, Reader.bind_eq_ok_iff, Reader.int32_eq_ok_iff, Reader.pure_eq_ok_iff] at h
        obtain ⟨id, _, rfl, rfl, rfl⟩ := h
        refine ⟨_, rfl, ?_⟩
        rw [GroupType.ofCode?_eq_some_iff.1 ht, List.append_assoc]
  · intro h
    obtain ⟨e, he, rfl⟩ := h
    cases he
    refine ⟨g.groupType.code, _, List.append_assoc _ _ _, ?_⟩
    simp only [GroupType.ofCode?_eq_some_iff.2 rfl, Reader.bind_eq_ok_iff, Reader.int32_eq_ok_iff,
      Reader.pure_eq_ok_iff]
    exact ⟨g.id, rest, rfl, rfl, rfl⟩

theorem Endpoint.encode_eq_ok_iff {p : Endpoint} {e : Bytes} :
    p.encode = .ok e ↔ ∃ ip, putText .endpointIp p.ip = .ok ip ∧ e = ip ++ putInt32 p.port := by
  simp only [encode, except_bind_eq_ok_iff, except_pure_eq_ok_iff]

theorem Endpoint.reader_inverts : Endpoint.reader.Inverts Endpoint.encode := by
  intro b p rest
  simp only [reader, Reader.bind_eq_ok_iff, Reader.text_inverts _ _ _ _, Reader.int32_eq_ok_iff,
    Reader.pure_eq_ok_iff, encode_eq_ok_iff]
  constructor
  · intro h
    obtain ⟨ip, _, ⟨e, he, rfl⟩, port, _, rfl, rfl, rfl⟩ := h
    exact ⟨_, ⟨e, he, rfl⟩, (List.append_assoc _ _ _).symm⟩
  · intro h
    obtain ⟨_, ⟨e, he, rfl⟩, rfl⟩ := h
    exact ⟨p.ip, _, ⟨e, he, List.append_assoc _ _ _⟩, p.port, rest, rfl, rfl, rfl⟩

theorem Location.encode_eq_ok_iff {l : Location} {e : Bytes} :
    l.encode = .ok e ↔
      ∃ endpoint, l.internalEndpoint.encode = .ok endpoint ∧
        e = putInt32 l.dataNodeId ++ endpoint := by
  simp only [encode, except_bind_eq_ok_iff, except_pure_eq_ok_iff]

theorem Location.reader_inverts : Location.reader.Inverts Location.encode := by
  intro b l rest
  simp only [reader, Reader.bind_eq_ok_iff, Endpoint.reader_inverts _ _ _, Reader.int32_eq_ok_iff,
    Reader.pure_eq_ok_iff, encode_eq_ok_iff]
  constructor
  · intro h
    obtain ⟨id, _, rfl, p, _, ⟨e, he, rfl⟩, rfl, rfl⟩ := h
    exact ⟨_, ⟨e, he, rfl⟩, (List.append_assoc _ _ _).symm⟩
  · intro h
    obtain ⟨_, ⟨e, he, rfl⟩, rfl⟩ := h
    exact ⟨l.dataNodeId, _, List.append_assoc _ _ _, l.internalEndpoint, rest, ⟨e, he, rfl⟩, rfl,
      rfl⟩

/-- A location takes its least length. -/
theorem Location.minLength_le (l : Location) (e : Bytes) (h : l.encode = .ok e) :
    Location.minLength ≤ e.length := by
  obtain ⟨endpoint, hendpoint, rfl⟩ := Location.encode_eq_ok_iff.1 h
  obtain ⟨ip, hip, rfl⟩ := Endpoint.encode_eq_ok_iff.1 hendpoint
  obtain ⟨-, rfl⟩ := putText_eq_ok_iff.1 hip
  simp only [minLength, Endpoint.minLength, List.length_append, length_putInt32]
  omega

theorem ReplicaSet.encode_eq_ok_iff {r : ReplicaSet} {e : Bytes} :
    r.encode = .ok e ↔
      ∃ regionId locations, r.regionId.encode = .ok regionId ∧ r.locations.length < 2147483648 ∧
        putMany Location.encode r.locations = .ok locations ∧
        e = regionId ++ (putInt32 (Int32.ofNat r.locations.length) ++ locations) := by
  simp only [encode, except_bind_eq_ok_iff, putLength_eq_ok_iff, except_pure_eq_ok_iff]
  constructor
  · intro h
    obtain ⟨regionId, hid, _, ⟨hfit, rfl⟩, locations, hlocations, rfl⟩ := h
    exact ⟨regionId, locations, hid, hfit, hlocations, List.append_assoc _ _ _⟩
  · intro h
    obtain ⟨regionId, locations, hid, hfit, hlocations, rfl⟩ := h
    exact ⟨regionId, hid, _, ⟨hfit, rfl⟩, locations, hlocations,
      (List.append_assoc _ _ _).symm⟩

theorem ReplicaSet.reader_inverts : ReplicaSet.reader.Inverts ReplicaSet.encode := by
  intro b r rest
  simp only [reader, Reader.bind_eq_ok_iff, GroupId.reader_inverts _ _ _, Reader.count_eq_ok_iff,
    Reader.many_eq_ok_iff Location.reader_inverts, Reader.pure_eq_ok_iff, encode_eq_ok_iff]
  constructor
  · intro h
    obtain ⟨id, _, ⟨e, he, rfl⟩, n, _, ⟨hn, -, rfl⟩, ls, _, ⟨rfl, f, hf, rfl⟩, rfl, rfl⟩ := h
    refine ⟨_, ⟨e, f, he, hn, hf, rfl⟩, ?_⟩
    simp only [List.append_assoc]
  · intro h
    obtain ⟨_, ⟨e, f, he, hn, hf, rfl⟩, rfl⟩ := h
    have hfit := length_le_putMany Location.minLength_le hf
    refine ⟨r.regionId, _, ⟨e, he, by simp only [List.append_assoc]⟩, r.locations.length, f ++ rest,
      ⟨hn, ?_, rfl⟩, r.locations, rest, ⟨rfl, f, hf, rfl⟩, rfl, rfl⟩
    rw [List.length_append]
    omega

/-- A replica set takes its least length. -/
theorem ReplicaSet.minLength_le (r : ReplicaSet) (e : Bytes) (h : r.encode = .ok e) :
    ReplicaSet.minLength ≤ e.length := by
  obtain ⟨id, locations, hid, -, -, rfl⟩ := ReplicaSet.encode_eq_ok_iff.1 h
  cases hid
  simp only [minLength, GroupId.minLength, List.length_append, length_putInt32]
  omega

/-! ## storage groups -/

theorem StorageGroupSchema.encode_eq_ok_iff {s : StorageGroupSchema} {e : Bytes} :
    s.encode = .ok e ↔
      ∃ name, putText .storageGroupName s.name = .ok name ∧
        e = name ++ (putInt64 s.ttlMs ++ (putInt32 s.schemaReplicationFactor ++
          (putInt32 s.dataReplicationFactor ++ putInt64 s.timePartitionIntervalMs))) := by
  simp only [encode, except_bind_eq_ok_iff, except_pure_eq_ok_iff, List.append_assoc]

theorem StorageGroupSchema.reader_inverts :
    StorageGroupSchema.reader.Inverts StorageGroupSchema.encode := by
  intro b s rest
  simp only [reader, Reader.bind_eq_ok_iff, Reader.text_inverts _ _ _ _, Reader.int32_eq_ok_iff,
    Reader.int64_eq_ok_iff, Reader.pure_eq_ok_iff, encode_eq_ok_iff]
  constructor
  · intro h
    obtain ⟨name, _, ⟨e, he, rfl⟩, ttl, _, rfl, schema, _, rfl, data, _, rfl, interval, _, rfl,
      rfl, rfl⟩ := h
    refine ⟨_, ⟨e, he, rfl⟩, ?_⟩
    simp only [List.append_assoc]
  · intro h
    obtain ⟨_, ⟨e, he, rfl⟩, rfl⟩ := h
    refine ⟨s.name, _, ⟨e, he, List.append_assoc _ _ _⟩, s.ttlMs, _, List.append_assoc _ _ _,
      s.schemaReplicationFactor, _, List.append_assoc _ _ _, s.dataReplicationFactor, _,
      List.append_assoc _ _ _, s.timePartitionIntervalMs, rest, rfl, rfl, rfl⟩

namespace RegionGroupMap

theorem encodeEntry_eq_ok_iff {p : String × List ReplicaSet} {e : Bytes} :
    encodeEntry p = .ok e ↔
      ∃ name sets, putText .storageGroupName p.1 = .ok name ∧ p.2.length < 2147483648 ∧
        putMany ReplicaSet.encode p.2 = .ok sets ∧
        e = name ++ (putInt32 (Int32.ofNat p.2.length) ++ sets) := by
  simp only [encodeEntry, except_bind_eq_ok_iff, putLength_eq_ok_iff, except_pure_eq_ok_iff]
  constructor
  · intro h
    obtain ⟨name, hname, _, ⟨hfit, rfl⟩, sets, hsets, rfl⟩ := h
    exact ⟨name, sets, hname, hfit, hsets, List.append_assoc _ _ _⟩
  · intro h
    obtain ⟨name, sets, hname, hfit, hsets, rfl⟩ := h
    exact ⟨name, hname, _, ⟨hfit, rfl⟩, sets, hsets, (List.append_assoc _ _ _).symm⟩

/-- An entry takes its least length. -/
theorem minEntryLength_le (p : String × List ReplicaSet) (e : Bytes) (h : encodeEntry p = .ok e) :
    minEntryLength ≤ e.length := by
  obtain ⟨name, sets, hname, -, -, rfl⟩ := encodeEntry_eq_ok_iff.1 h
  obtain ⟨-, rfl⟩ := putText_eq_ok_iff.1 hname
  simp only [minEntryLength, List.length_append, length_putInt32]
  omega

theorem encode_eq_ok_iff {m : RegionGroupMap} {e : Bytes} :
    RegionGroupMap.encode m = .ok e ↔
      ∃ entries, m.entries.length < 2147483648 ∧ putMany encodeEntry m.entries = .ok entries ∧
        e = putInt32 (Int32.ofNat m.entries.length) ++ entries := by
  simp only [encode, except_bind_eq_ok_iff, putLength_eq_ok_iff, except_pure_eq_ok_iff,
    SortedMap.size]
  constructor
  · intro h
    obtain ⟨_, ⟨hfit, rfl⟩, entries, hentries, rfl⟩ := h
    exact ⟨entries, hfit, hentries, rfl⟩
  · intro h
    obtain ⟨entries, hfit, hentries, rfl⟩ := h
    exact ⟨_, ⟨hfit, rfl⟩, entries, hentries, rfl⟩

/-- Reading `n` entries appends them to the map that was read before.  That the names have to
increase is no further condition: the result is a sorted map. -/
theorem entriesReader_eq_ok_iff {n : Nat} {m m' : RegionGroupMap} {b rest : Bytes} :
    entriesReader n m b = (.ok m', rest) ↔
      ∃ l e, l.length = n ∧ m'.entries = m.entries ++ l ∧ putMany encodeEntry l = .ok e ∧
        b = e ++ rest := by
  induction n generalizing m b with
  | zero =>
      simp only [entriesReader, Reader.pure_eq_ok_iff, List.length_eq_zero_iff]
      constructor
      · intro h
        obtain ⟨rfl, rfl⟩ := h
        exact ⟨[], [], rfl, (List.append_nil _).symm, rfl, rfl⟩
      · intro h
        obtain ⟨l, e, rfl, hm, he, rfl⟩ := h
        cases he
        exact ⟨SortedMap.ext (by rw [hm, List.append_nil]), rfl⟩
  | succ n ih =>
      simp only [entriesReader, Reader.bind_eq_ok_iff, Reader.text_inverts _ _ _ _]
      constructor
      · intro h
        obtain ⟨name, _, ⟨nameBytes, hname, rfl⟩, h⟩ := h
        split at h
        · simp at h
        · next hlast =>
            simp only [Reader.bind_eq_ok_iff, Reader.count_eq_ok_iff,
              Reader.many_eq_ok_iff ReplicaSet.reader_inverts, ih] at h
            obtain ⟨_, _, ⟨hcount, -, rfl⟩, sets, _, ⟨rfl, setBytes, hsets, rfl⟩, l, e, hlen, hm,
              he, rfl⟩ := h
            have hgt : ∀ p, m.last? = some p → compare name p.1 = .gt := by
              intro p hp
              simpa [hp] using hlast
            rw [SortedMap.entries_insert_of_last sets hgt, List.append_assoc] at hm
            refine ⟨(name, sets) :: l, _, by rw [List.length_cons, hlen], hm,
              putMany_cons_eq_ok_iff.2 ⟨_, e,
                encodeEntry_eq_ok_iff.2 ⟨nameBytes, setBytes, hname, hcount, hsets, rfl⟩, he,
                rfl⟩, ?_⟩
            simp only [List.append_assoc]
      · intro h
        obtain ⟨l, e, hlen, hm, he, rfl⟩ := h
        cases l with
        | nil => simp at hlen
        | cons p l =>
            obtain ⟨head, tail, hhead, htail, rfl⟩ := putMany_cons_eq_ok_iff.1 he
            obtain ⟨nameBytes, setBytes, hname, hcount, hsets, rfl⟩ :=
              encodeEntry_eq_ok_iff.1 hhead
            have hgt : ∀ q, m.last? = some q → compare p.1 q.1 = .gt := by
              intro q hq
              have hordered := m'.ordered
              rw [hm] at hordered
              exact Std.OrientedCmp.gt_iff_lt.2 ((List.pairwise_append.1 hordered).2.2 q
                (List.mem_of_getLast? hq) p List.mem_cons_self)
            have hlast : ¬ (m.last?.any fun last => compare p.1 last.1 != .gt) = true := by
              cases hq : m.last? with
              | none => simp
              | some q => simp [hgt q hq]
            have hfit := length_le_putMany ReplicaSet.minLength_le hsets
            refine ⟨p.1, _, ⟨nameBytes, hname, by simp only [List.append_assoc]; rfl⟩, ?_⟩
            rw [if_neg hlast]
            simp only [Reader.bind_eq_ok_iff, Reader.count_eq_ok_iff,
              Reader.many_eq_ok_iff ReplicaSet.reader_inverts, ih]
            refine ⟨p.2.length, setBytes ++ (tail ++ rest), ⟨hcount, ?_, rfl⟩, p.2, tail ++ rest,
              ⟨rfl, setBytes, hsets, rfl⟩, l, tail, by simpa using hlen, ?_, htail, rfl⟩
            · rw [List.length_append]
              omega
            · rw [SortedMap.entries_insert_of_last p.2 hgt, hm, List.append_assoc]
              rfl

theorem reader_inverts : RegionGroupMap.reader.Inverts RegionGroupMap.encode := by
  intro b m rest
  simp only [reader, Reader.bind_eq_ok_iff, Reader.count_eq_ok_iff, entriesReader_eq_ok_iff,
    encode_eq_ok_iff, SortedMap.entries_empty, List.nil_append]
  constructor
  · intro h
    obtain ⟨_, _, ⟨hn, -, rfl⟩, l, e, rfl, rfl, he, rfl⟩ := h
    exact ⟨_, ⟨e, hn, he, rfl⟩, (List.append_assoc _ _ _).symm⟩
  · intro h
    obtain ⟨_, ⟨e, hn, he, rfl⟩, rfl⟩ := h
    have hfit := length_le_putMany minEntryLength_le he
    refine ⟨m.entries.length, e ++ rest, ⟨hn, ?_, List.append_assoc _ _ _⟩, m.entries, e, rfl, rfl,
      he, rfl⟩
    rw [List.length_append]
    omega

end RegionGroupMap

/-! ## commands -/

namespace Command

theorem encode_eq_ok_iff {c : Command} {e : Bytes} :
    c.encode = .ok e ↔ ∃ payload, c.encodePayload = .ok payload ∧ e = putInt32 c.kind.tag ++ payload
    := by
  simp only [encode, except_bind_eq_ok_iff, except_pure_eq_ok_iff]

/-- The payload reader of a kind reads the payloads of the commands of that kind. -/
theorem payloadReader_eq_ok_iff {k : CommandKind} {c : Command} {b rest : Bytes} :
    payloadReader k b = (.ok c, rest) ↔
      c.kind = k ∧ ∃ e, c.encodePayload = .ok e ∧ b = e ++ rest := by
  cases k <;> cases c <;>
    simp [payloadReader, Reader.bind_eq_ok_iff, kind, encodePayload, Location.reader_inverts _ _ _,
      StorageGroupSchema.reader_inverts _ _ _, Reader.text_inverts _ _ _ _,
      RegionGroupMap.reader_inverts _ _ _]

theorem kind_eq_of_ofTag {tag : Int32} {k : CommandKind} (h : CommandKind.ofTag tag = .ok k) :
    tag = k.tag := by
  simp only [CommandKind.ofTag] at h
  repeat' split at h
  all_goals first | (cases h; assumption) | cases h

/-- The command reader inverts the encoder. -/
theorem reader_inverts : Command.reader.Inverts Command.encode := by
  intro b c rest
  simp only [reader, Reader.bind_eq_ok_iff, Reader.int32_eq_ok_iff, encode_eq_ok_iff]
  constructor
  · intro h
    obtain ⟨tag, _, rfl, h⟩ := h
    cases hk : CommandKind.ofTag tag with
    | error e => simp [hk] at h
    | ok k =>
        simp only [hk, payloadReader_eq_ok_iff] at h
        obtain ⟨rfl, e, he, rfl⟩ := h
        refine ⟨_, ⟨e, he, rfl⟩, ?_⟩
        rw [kind_eq_of_ofTag hk, List.append_assoc]
  · intro h
    obtain ⟨_, ⟨e, he, rfl⟩, rfl⟩ := h
    refine ⟨c.kind.tag, _, List.append_assoc _ _ _, ?_⟩
    rw [CommandKind.ofTag_tag]
    exact payloadReader_eq_ok_iff.2 ⟨rfl, e, he, rfl⟩

/-- A byte string is a command exactly if the reader takes all of it. -/
theorem decode_eq_ok_iff_reader {b : Bytes} {c : Command} :
    decode b = .ok c ↔ reader b = (.ok c, []) := by
  rw [decode]
  cases reader b with
  | mk result rest =>
      cases result with
      | error e => simp
      | ok c' => cases rest <;> simp

/-- A byte string is a command exactly if it is what the command is written as. -/
theorem decode_eq_ok_iff_encode {b : Bytes} {c : Command} :
    decode b = .ok c ↔ c.encode = .ok b := by
  rw [decode_eq_ok_iff_reader, reader_inverts]
  constructor
  · intro h
    obtain ⟨e, he, rfl⟩ := h
    rwa [List.append_nil]
  · intro h
    exact ⟨b, h, (List.append_nil b).symm⟩

end Command

end ControlPlane
