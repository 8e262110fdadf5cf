import ControlPlane.Proofs.Command.Inverse
import ControlPlane.Proofs.Text.Order

/-!
# ControlPlane.Proofs.Command.Refusal

What a refusal says is true of the bytes, at the place where the reader stopped.  A failing reader
has read a front of the buffer and leaves the rest; which bytes it has read before it fails differs
by kind of field, and the refusal tells: a field that lacks bytes has taken none of them, a length,
count, tag or code that is refused is the last that was read, and so is a text that is not UTF-8 or
a key that is out of order.

Most refusals are about the last bytes that were read.  A key that is out of order is about all of
them, since the key before it is somewhere in front; so what a reader says is judged together with
the bytes that were read before it started (`Reader.TruthfulAt`).
-/

namespace ControlPlane

namespace Wire

/-- The fewest bytes of the items that a length or count declares: of an encoded storage group, of
an encoded replica set or location, of one byte of a text. -/
def Field.leastItem? : Field → Option Nat
  | .storageGroupCount => some 8
  | .replicaSetCount => some 12
  | .locationCount => some 12
  | .storageGroupName => some 1
  | .endpointIp => some 1
  | _ => none

/-- These bytes are a command for region groups up to and with a key that is not greater than the
key before it. -/
def EndsOutOfOrder (read : Bytes) (key : String) : Prop :=
  ∃ (count : Int32) (m : RegionGroupMap) (previous : String × List ReplicaSet) (entries : Bytes),
    putMany RegionGroupMap.encodeEntry m.entries = .ok entries ∧ m.last? = some previous ∧
    read = putInt32 CommandKind.createRegionGroups.tag ++ (putInt32 count ++ (entries ++
      (putInt32 (Int32.ofNat (Utf8.encode key).length) ++ Utf8.encode key))) ∧
    ¬ Utf8.encode previous.1 < Utf8.encode key

/-- The bytes that were read, and those that are left, are as a refusal says.  That bytes are left
behind a complete command is no refusal of a reader. -/
def DecodeError.Describes (read rest : Bytes) : DecodeError → Prop
  | .truncated _ needed remaining =>
    rest.length = remaining ∧ remaining < needed ∧ (needed = 4 ∨ needed = 8)
  | .unknownKind tag => putInt32 tag <:+ read ∧ ∀ kind : CommandKind, kind.tag ≠ tag
  | .negativeLength _ value => putInt32 value <:+ read ∧ value.toInt < 0
  | .countTooLarge field count remaining =>
    rest.length = remaining ∧ putInt32 count <:+ read ∧
      ∃ least, field.leastItem? = some least ∧ remaining < count.toInt * least
  | .invalidUtf8 _ =>
    ∃ raw : Bytes, raw.length < 2147483648 ∧
      putInt32 (Int32.ofNat raw.length) ++ raw <:+ read ∧ Utf8.decode? raw = none
  | .unknownGroupType value => putInt32 value <:+ read ∧ ∀ t : GroupType, t.code ≠ value
  | .nonCanonicalOrder key => EndsOutOfOrder read key
  | .trailingBytes _ => False

namespace Reader

variable {α β : Type}

/-- With these bytes read before, a reader leaves a suffix of what it is given, and what it fails
with describes all bytes that were read. -/
structure TruthfulAt (r : Reader α) (front b : Bytes) : Prop where
  ok : ∀ {a : α} {rest : Bytes}, r b = (.ok a, rest) → ∃ read, b = read ++ rest
  error : ∀ {e : DecodeError} {rest : Bytes}, r b = (.error e, rest) →
    ∃ read, b = read ++ rest ∧ e.Describes (front ++ read) rest

/-- A reader that tells the truth wherever it starts. -/
def Truthful (r : Reader α) : Prop := ∀ front b, r.TruthfulAt front b

/-- Whatever a reader refuses a buffer for describes what it has read of it and what it leaves. -/
def RefusesTruly (r : Reader α) : Prop :=
  ∀ b e rest, r b = (.error e, rest) → ∃ read, b = read ++ rest ∧ e.Describes read rest

/-- What a reader has read is the written form of its result, if it inverts a writer. -/
theorem Inverts.eq_of_ok {r : Reader α} {put : α → Except EncodeError Bytes} (h : r.Inverts put)
    {a : α} {read rest : Bytes} (hok : r (read ++ rest) = (.ok a, rest)) : put a = .ok read := by
  obtain ⟨e, he, heq⟩ := (h _ _ _).1 hok
  rw [he, List.append_cancel_right heq]

/-! ## primitives -/

theorem truthful_pure (a : α) : (pure a : Reader α).Truthful := fun front b =>
  { ok := fun h => ⟨[], (pure_eq_ok_iff.1 h).2⟩
    error := fun h => by cases h }

/-- A reader that takes nothing may fail with what describes the bytes in front. -/
theorem truthfulAt_fail {e : DecodeError} {front b : Bytes} (h : e.Describes front b) :
    (fail e : Reader α).TruthfulAt front b where
  ok hok := by cases hok
  error herror := by
    cases herror
    exact ⟨[], rfl, by rwa [List.append_nil]⟩

/-- A fixed-size field that is not there takes nothing. -/
theorem truthful_fixed (field : Field) {n : Nat} (hn : n = 4 ∨ n = 8) :
    (fixed field n).Truthful := fun front b =>
  { ok := fun h => ⟨_, (fixed_eq_ok_iff.1 h).2⟩
    error := fun h => by
      unfold fixed at h
      by_cases hlen : b.length < n
      · rw [if_pos hlen] at h
        cases h
        exact ⟨[], rfl, rfl, hlen, hn⟩
      · rw [if_neg hlen] at h
        cases h }

theorem truthful_take (n : Nat) : (take n).Truthful := fun front b =>
  { ok := fun h => by
      cases h
      exact ⟨b.take n, (List.take_append_drop n b).symm⟩
    error := fun h => by cases h }

theorem truthful_remaining : remaining.Truthful := fun front b =>
  { ok := fun h => ⟨[], (remaining_eq_ok_iff.1 h).2⟩
    error := fun h => by cases h }

/-- Readers in a row tell the truth if the first does, and the second with what the first has read
in front of it. -/
theorem TruthfulAt.bind {r : Reader α} {f : α → Reader β} {front b : Bytes}
    (hr : r.TruthfulAt front b)
    (hf : ∀ a read rest, b = read ++ rest → r (read ++ rest) = (.ok a, rest) →
      (f a).TruthfulAt (front ++ read) rest) : (r >>= f).TruthfulAt front b where
  ok h := by
    obtain ⟨a, mid, ha, hfa⟩ := bind_eq_ok_iff.1 h
    obtain ⟨read, rfl⟩ := hr.ok ha
    obtain ⟨read', rfl⟩ := (hf a read mid rfl ha).ok hfa
    exact ⟨read ++ read', (List.append_assoc _ _ _).symm⟩
  error h := by
    rcases bind_eq_error_iff.1 h with h | ⟨a, mid, ha, hfa⟩
    · exact hr.error h
    · obtain ⟨read, rfl⟩ := hr.ok ha
      obtain ⟨read', rfl, hdescribes⟩ := (hf a read mid rfl ha).error hfa
      exact ⟨read ++ read', (List.append_assoc _ _ _).symm, by rwa [← List.append_assoc]⟩

theorem Truthful.bind {r : Reader α} {f : α → Reader β} (hr : r.Truthful)
    (hf : ∀ a, (f a).Truthful) : (r >>= f).Truthful := fun front b =>
  (hr front b).bind fun a read rest _ _ => hf a (front ++ read) rest

theorem truthful_int32 (field : Field) : (int32 field).Truthful :=
  (truthful_fixed field (.inl rfl)).bind fun _ => truthful_pure _

theorem truthful_int64 (field : Field) : (int64 field).Truthful :=
  (truthful_fixed field (.inr rfl)).bind fun _ => truthful_pure _

/-- What goes on from an integer has its bytes in front, and may fail with what is about it. -/
theorem truthfulAt_int32_bind (field : Field) {f : Int32 → Reader β} {front b : Bytes}
    (hf : ∀ v rest, (f v).TruthfulAt (front ++ putInt32 v) rest) :
    (int32 field >>= f).TruthfulAt front b :=
  (truthful_int32 field front b).bind fun v read rest _ hv => by
    rw [List.append_cancel_right (int32_eq_ok_iff.1 hv)]
    exact hf v rest

/-! ## counts and texts -/

/-- A count that is refused has been read, and the bytes that are left are too few for it. -/
theorem truthful_count {field : Field} {least : Nat} (h : field.leastItem? = some least) :
    (count field least).Truthful := by
  intro front b
  unfold count
  refine truthfulAt_int32_bind field fun declared rest => ?_
  by_cases hneg : declared.toInt < 0
  · rw [if_pos hneg]
    exact truthfulAt_fail ⟨List.suffix_append _ _, hneg⟩
  · rw [if_neg hneg]
    refine (truthful_remaining _ rest).bind fun left read rest' _ hleft => ?_
    obtain ⟨rfl, hread⟩ := remaining_eq_ok_iff.1 hleft
    rw [hread]
    by_cases hfit : declared.toInt.toNat * least > rest'.length
    · rw [if_pos hfit, List.append_left_eq_self.1 hread, List.append_nil]
      refine truthfulAt_fail ⟨rfl, List.suffix_append _ _, least, h, ?_⟩
      rw [← Int.toNat_of_nonneg (Int.not_lt.1 hneg)]
      exact_mod_cast hfit
    · rw [if_neg hfit]
      exact truthful_pure _ _ rest'

/-- What goes on from a count has its bytes in front, and enough bytes left for the items. -/
theorem truthfulAt_count_bind {field : Field} {least : Nat} (h : field.leastItem? = some least)
    {f : Nat → Reader β} {front b : Bytes}
    (hf : ∀ n rest, n < 2147483648 → n * least ≤ rest.length →
      (f n).TruthfulAt (front ++ putInt32 (Int32.ofNat n)) rest) :
    (count field least >>= f).TruthfulAt front b :=
  (truthful_count h front b).bind fun n read rest _ hcount => by
    obtain ⟨hn, hfit, hread⟩ := count_eq_ok_iff.1 hcount
    rw [List.append_cancel_right hread]
    exact hf n rest hn hfit

/-- Bytes that are all there are taken as they are. -/
theorem take_eq_ok {n : Nat} {b raw rest : Bytes} (hlen : n ≤ b.length)
    (h : take n b = (.ok raw, rest)) : raw.length = n ∧ b = raw ++ rest := by
  cases h
  exact ⟨by rw [List.length_take]; omega, (List.take_append_drop n b).symm⟩

/-- The bytes of a text have been read before they turn out not to be UTF-8. -/
theorem truthful_text {field : Field} (h : field.leastItem? = some 1) : (text field).Truthful := by
  intro front b
  unfold text
  refine truthfulAt_count_bind h fun n rest hn hfit => ?_
  refine (truthful_take n _ rest).bind fun raw read rest' hrest htake => ?_
  obtain ⟨hlen, hsplit⟩ := take_eq_ok (by rw [← hrest]; omega) htake
  cases List.append_cancel_right hsplit
  cases hraw : Utf8.decode? raw with
  | some s => exact truthful_pure s _ rest'
  | none =>
      refine truthfulAt_fail ⟨raw, by omega, ?_, hraw⟩
      rw [hlen, List.append_assoc]
      exact List.suffix_append _ _

/-- A run of items is read truthfully if each item is. -/
theorem truthful_many {item : Reader α} (h : item.Truthful) (n : Nat) :
    (many item n).Truthful := by
  induction n with
  | zero => exact truthful_pure []
  | succ n ih => exact h.bind fun a => ih.bind fun rest => truthful_pure (a :: rest)

end Reader

end Wire

open Wire Wire.Reader

/-! ## the readers of the wire format -/

theorem GroupId.truthful_reader : GroupId.reader.Truthful := by
  refine fun front b => truthfulAt_int32_bind .groupType fun code rest => ?_
  cases h : GroupType.ofCode? code with
  | some groupType =>
      exact ((truthful_int32 .groupId).bind fun id => truthful_pure _) _ rest
  | none =>
      refine truthfulAt_fail ⟨List.suffix_append _ _, fun t ht => ?_⟩
      rw [GroupType.ofCode?_eq_some_iff.2 ht.symm] at h
      cases h

theorem Endpoint.truthful_reader : Endpoint.reader.Truthful :=
  (truthful_text rfl).bind fun _ => (truthful_int32 .endpointPort).bind fun _ => truthful_pure _

theorem Location.truthful_reader : Location.reader.Truthful :=
  (truthful_int32 .dataNodeId).bind fun _ =>
    Endpoint.truthful_reader.bind fun _ => truthful_pure _

theorem ReplicaSet.truthful_reader : ReplicaSet.reader.Truthful :=
  GroupId.truthful_reader.bind fun _ => (truthful_count rfl).bind fun n =>
    (truthful_many Location.truthful_reader n).bind fun _ => truthful_pure _

theorem StorageGroupSchema.truthful_reader : StorageGroupSchema.reader.Truthful :=
  (truthful_text rfl).bind fun _ => (truthful_int64 .ttl).bind fun _ =>
    (truthful_int32 .schemaReplicationFactor).bind fun _ =>
      (truthful_int32 .dataReplicationFactor).bind fun _ =>
        (truthful_int64 .timePartitionInterval).bind fun _ => truthful_pure _

namespace RegionGroupMap

/-- A name that is refused comes behind a key that is not smaller. -/
theorem exists_last_of_any {m : RegionGroupMap} {name : String}
    (h : (m.last?.any fun last => compare name last.1 != .gt) = true) :
    ∃ previous, m.last? = some previous ∧ ¬ Utf8.encode previous.1 < Utf8.encode name := by
  obtain ⟨previous, hprevious, hle⟩ := (Option.any_eq_true _ _).1 h
  refine ⟨previous, hprevious, fun hlt => ?_⟩
  have hgt : compare name previous.1 = .gt :=
    Std.OrientedCmp.gt_iff_lt.2 (compareOfLessAndEq_eq_lt.2 (Utf8.encode_lt_encode_iff.1 hlt))
  rw [hgt] at hle
  cases hle

/-- The entry of a name that is accepted is written behind the others. -/
theorem putMany_insert {m : RegionGroupMap} {name : String} {sets : List ReplicaSet}
    {entries entry : Bytes} (hlast : ¬ (m.last?.any fun last => compare name last.1 != .gt) = true)
    (h : putMany encodeEntry m.entries = .ok entries)
    (hentry : encodeEntry (name, sets) = .ok entry) :
    putMany encodeEntry (m.insert name sets).entries = .ok (entries ++ entry) := by
  have hgt : ∀ p, m.last? = some p → compare name p.1 = .gt := by
    intro p hp
    simpa [hp] using hlast
  rw [SortedMap.entries_insert_of_last sets hgt]
  exact putMany_append h
    (putMany_cons_eq_ok_iff.2 ⟨entry, [], hentry, rfl, (List.append_nil _).symm⟩)

/-- The bytes in front of an entry are those of the entries that were read, behind the tag and their
count. -/
theorem truthfulAt_entriesReader {n : Nat} {count : Int32} {m : RegionGroupMap} {entries : Bytes}
    (h : putMany encodeEntry m.entries = .ok entries) (b : Bytes) :
    (entriesReader n m).TruthfulAt
      (putInt32 CommandKind.createRegionGroups.tag ++ (putInt32 count ++ entries)) b := by
  induction n generalizing m entries b with
  | zero => exact truthful_pure m _ b
  | succ n ih =>
      refine (truthful_text rfl _ b).bind fun name text rest _ hname => ?_
      have htext := (text_inverts .storageGroupName).eq_of_ok hname
      by_cases hlast : (m.last?.any fun last => compare name last.1 != .gt) = true
      · rw [if_pos hlast]
        obtain ⟨previous, hprevious, hnot⟩ := exists_last_of_any hlast
        refine truthfulAt_fail ⟨count, m, previous, entries, h, hprevious, ?_, hnot⟩
        rw [(putText_eq_ok_iff.1 htext).2, List.append_assoc, List.append_assoc]
      · rw [if_neg hlast]
        refine truthfulAt_count_bind rfl fun k rest hk _ => ?_
        refine (truthful_many ReplicaSet.truthful_reader k _ rest).bind
          fun sets setBytes rest _ hsets => ?_
        obtain ⟨rfl, e, he, hread⟩ := (many_eq_ok_iff ReplicaSet.reader_inverts).1 hsets
        cases List.append_cancel_right hread
        have hentries := putMany_insert hlast h
          (encodeEntry_eq_ok_iff.2 ⟨text, setBytes, htext, hk, he, rfl⟩)
        have hnext := ih hentries rest
        simp only [List.append_assoc] at hnext ⊢
        exact hnext

/-- A command for region groups is read truthfully behind its tag. -/
theorem truthfulAt_reader (b : Bytes) :
    RegionGroupMap.reader.TruthfulAt (putInt32 CommandKind.createRegionGroups.tag) b := by
  refine truthfulAt_count_bind rfl fun n rest _ _ => ?_
  have h : (entriesReader n SortedMap.empty).TruthfulAt (putInt32
      CommandKind.createRegionGroups.tag ++ (putInt32 (Int32.ofNat n) ++ [])) rest :=
    truthfulAt_entriesReader rfl rest
  rwa [List.append_nil] at h

end RegionGroupMap

theorem CommandKind.ofTag_eq_error {tag : Int32} {e : DecodeError} (h : ofTag tag = .error e) :
    e = .unknownKind tag ∧ ∀ kind : CommandKind, kind.tag ≠ tag := by
  refine ⟨?_, fun kind hkind => ?_⟩
  · simp only [ofTag] at h
    repeat' split at h
    all_goals cases h
    rfl
  · rw [← hkind, ofTag_tag] at h
    cases h

namespace Command

/-- A payload is read truthfully behind the tag of its kind. -/
theorem truthfulAt_payloadReader (k : CommandKind) (b : Bytes) :
    (payloadReader k).TruthfulAt (putInt32 k.tag) b := by
  cases k with
  | registerDataNode => exact (Location.truthful_reader.bind fun _ => truthful_pure _) _ b
  | setStorageGroup => exact (StorageGroupSchema.truthful_reader.bind fun _ => truthful_pure _) _ b
  | deleteStorageGroup => exact ((truthful_text rfl).bind fun _ => truthful_pure _) _ b
  | createRegionGroups =>
      exact (RegionGroupMap.truthfulAt_reader b).bind fun _ _ rest _ _ => truthful_pure _ _ rest

/-- A command is read truthfully at the front of a buffer. -/
theorem truthfulAt_reader (b : Bytes) : reader.TruthfulAt [] b := by
  refine truthfulAt_int32_bind .kindTag fun tag rest => ?_
  cases hkind : CommandKind.ofTag tag with
  | ok kind =>
      rw [kind_eq_of_ofTag hkind]
      exact truthfulAt_payloadReader kind rest
  | error e =>
      obtain ⟨rfl, hunknown⟩ := CommandKind.ofTag_eq_error hkind
      exact truthfulAt_fail ⟨List.suffix_refl _, hunknown⟩

theorem decode_eq_error_iff {b : Bytes} {e : DecodeError} :
    decode b = .error e ↔ (∃ rest, reader b = (.error e, rest)) ∨
      ∃ c rest, reader b = (.ok c, rest) ∧ rest ≠ [] ∧ e = .trailingBytes rest.length := by
  rw [decode]
  cases reader b with
  | mk result rest =>
      cases result with
      | error e' => simp
      | ok c => cases rest <;> simp [eq_comm]

/-- **Refusals tell the truth.**  A reader that refuses a buffer leaves a suffix of it, and what it
says holds of the suffix and of the bytes in front of it: fewer bytes are left than the field needs,
or than the count that was just read declares; a negative length, an unknown tag or code, a text
that is not UTF-8 or a key that is not greater than the one before it was read last.  No reader
complains of bytes behind what it was to read; a whole buffer is refused for what the reader refuses
it for, or for the bytes that are left behind a command. -/
theorem refusals_tell_the_truth :
    Command.reader.RefusesTruly ∧ GroupId.reader.RefusesTruly ∧ Endpoint.reader.RefusesTruly ∧
      Location.reader.RefusesTruly ∧ ReplicaSet.reader.RefusesTruly ∧
    (∀ b n rest, Command.reader b ≠ (.error (.trailingBytes n), rest)) ∧
    (∀ b e, decode b = .error e ↔ (∃ rest, reader b = (.error e, rest)) ∨
      ∃ c rest, reader b = (.ok c, rest) ∧ rest ≠ [] ∧ e = .trailingBytes rest.length) := by
  refine ⟨fun b e rest => (truthfulAt_reader b).error,
    fun b e rest => (GroupId.truthful_reader [] b).error,
    fun b e rest => (Endpoint.truthful_reader [] b).error,
    fun b e rest => (Location.truthful_reader [] b).error,
    fun b e rest => (ReplicaSet.truthful_reader [] b).error, fun b n rest h => ?_,
    fun b e => decode_eq_error_iff⟩
  obtain ⟨_, -, hfalse⟩ := (truthfulAt_reader b).error h
  exact hfalse

/-- A command for region groups whose second key is smaller than the first, with two bytes behind
that key. -/
def descending : Bytes :=
  [0, 0, 0, 3, 0, 0, 0, 2, 0, 0, 0, 2, 0xC3, 0xA9, 0, 0, 0, 0, 0, 0, 0, 1, 101, 0, 0]

/-- A replica set that declares two locations, with bytes for less than that. -/
def crowded : Bytes :=
  [0, 0, 0, 1, 0, 0, 0, 7, 0, 0, 0, 2, 0, 0, 0, 1, 0, 0, 0, 0, 0, 0, 0, 80]

theorem refusals_tell_the_truth_descending :
    reader descending = (.error (.nonCanonicalOrder "e"), [0, 0]) ∧
      (∃ read, descending = read ++ [0, 0] ∧ EndsOutOfOrder read "e") ∧
    ReplicaSet.reader crowded =
        (.error (.countTooLarge .locationCount 2 12), [0, 0, 0, 1, 0, 0, 0, 0, 0, 0, 0, 80]) ∧
      (∃ read, crowded = read ++ [0, 0, 0, 1, 0, 0, 0, 0, 0, 0, 0, 80] ∧ putInt32 2 <:+ read) ∧
    reader [0, 0, 0, 2, 0, 0, 0, 1, 0xFF, 7] = (.error (.invalidUtf8 .storageGroupName), [7]) ∧
      ∃ read raw : Bytes, [0, 0, 0, 2, 0, 0, 0, 1, 0xFF, 7] = read ++ [7] ∧
        putInt32 (Int32.ofNat raw.length) ++ raw <:+ read ∧ Utf8.decode? raw = none := by
  obtain ⟨hcommand, -, -, -, hset, -⟩ := refusals_tell_the_truth
  have horder : reader descending = (.error (.nonCanonicalOrder "e"), [0, 0]) := by decide +kernel
  have hcount : ReplicaSet.reader crowded =
      (.error (.countTooLarge .locationCount 2 12), [0, 0, 0, 1, 0, 0, 0, 0, 0, 0, 0, 80]) := by
    decide +kernel
  have htext : reader [0, 0, 0, 2, 0, 0, 0, 1, 0xFF, 7] =
      (.error (.invalidUtf8 .storageGroupName), [7]) := by decide +kernel
  obtain ⟨read, hread, -, hsuffix, -⟩ := hset _ _ _ hcount
  obtain ⟨read', hread', raw, -, hraw, hnone⟩ := hcommand _ _ _ htext
  exact ⟨horder, hcommand _ _ _ horder, hcount, ⟨read, hread, hsuffix⟩, htext, read', raw, hread',
    hraw, hnone⟩

end Command

end ControlPlane
