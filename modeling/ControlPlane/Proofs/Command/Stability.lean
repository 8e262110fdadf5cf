import ControlPlane.Proofs.Command.Inverse
import Mathlib.Control.Monad.Basic

/-!
# ControlPlane.Proofs.Command.Stability

What a reader makes of a buffer does not depend on the bytes behind those that it takes.  A reader
is *stable* if more bytes at the end change neither a result nor a failure, but for the failures
that say that bytes are missing.  The two runs do not make the same checks, as a count is held
against all the bytes that are left; a count that was plausible stays so when there are more.

Every reader of the wire format is stable.  So no strict prefix of an accepted command is accepted,
and each of them is refused for want of bytes.
-/

namespace ControlPlane

namespace Wire

/-- The failures that say that bytes are missing: a field lacks some, or those that are left cannot
hold what a count or length declares. -/
inductive DecodeError.IsShortage : DecodeError → Prop
  | truncated (field : Field) (needed remaining : Nat) :
    IsShortage (.truncated field needed remaining)
  | countTooLarge (field : Field) (count : Int32) (remaining : Nat) :
    IsShortage (.countTooLarge field count remaining)

namespace Reader

variable {α β : Type}

/-- More bytes behind these do not change what a reader makes of them. -/
structure StableAt (r : Reader α) (b : Bytes) : Prop where
  ok : ∀ {a : α} {rest : Bytes}, r b = (.ok a, rest) → ∀ s, r (b ++ s) = (.ok a, rest ++ s)
  error : ∀ {e : DecodeError} {rest : Bytes}, r b = (.error e, rest) → ¬ e.IsShortage →
    ∀ s, r (b ++ s) = (.error e, rest ++ s)

/-- A reader that is stable on all bytes. -/
def Stable (r : Reader α) : Prop := ∀ b, r.StableAt b

/-! ## primitives -/

theorem stable_pure (a : α) : (pure a : Reader α).Stable := fun b =>
  { ok := fun h s => by
      rw [pure_eq_ok_iff] at h ⊢
      obtain ⟨rfl, rfl⟩ := h
      exact ⟨rfl, rfl⟩
    error := fun h => by cases h }

theorem stable_fail (e : DecodeError) : (fail e : Reader α).Stable := fun b =>
  { ok := fun h => by cases h
    error := fun h _ s => by
      cases h
      rfl }

/-- A fixed-size field that is there stays there. -/
theorem stable_fixed (field : Field) (n : Nat) : (fixed field n).Stable := fun b =>
  { ok := fun h s => by
      rw [fixed_eq_ok_iff] at h ⊢
      obtain ⟨hlen, rfl⟩ := h
      exact ⟨hlen, List.append_assoc _ _ _⟩
    error := fun h he => by
      unfold fixed at h
      by_cases hlen : b.length < n
      · rw [if_pos hlen] at h
        cases h
        exact absurd (.truncated _ _ _) he
      · rw [if_neg hlen] at h
        cases h }

/-- Readers in a row are stable if the first is, and the second on what is left. -/
theorem StableAt.bind {r : Reader α} {f : α → Reader β} {b : Bytes} (hr : r.StableAt b)
    (hf : ∀ a rest, r b = (.ok a, rest) → (f a).StableAt rest) : (r >>= f).StableAt b where
  ok h s := by
    obtain ⟨a, mid, ha, hfa⟩ := bind_eq_ok_iff.1 h
    exact bind_eq_ok_iff.2 ⟨a, mid ++ s, hr.ok ha s, (hf a mid ha).ok hfa s⟩
  error h he s := by
    rw [bind_eq_error_iff] at h ⊢
    rcases h with h | ⟨a, mid, ha, hfa⟩
    · exact .inl (hr.error h he s)
    · exact .inr ⟨a, mid ++ s, hr.ok ha s, (hf a mid ha).error hfa he s⟩

theorem Stable.bind {r : Reader α} {f : α → Reader β} (hr : r.Stable) (hf : ∀ a, (f a).Stable) :
    (r >>= f).Stable := fun b => (hr b).bind fun a rest _ => hf a rest

theorem stable_int32 (field : Field) : (int32 field).Stable :=
  (stable_fixed field 4).bind fun _ => stable_pure _

theorem stable_int64 (field : Field) : (int64 field).Stable :=
  (stable_fixed field 8).bind fun _ => stable_pure _

/-! ## counts and texts -/

/-- A count that the bytes left could satisfy is satisfied by more of them; one that they could not
is a shortage. -/
theorem stable_count (field : Field) (least : Nat) : (count field least).Stable := by
  unfold count
  refine (stable_int32 field).bind fun declared b => ?_
  by_cases hneg : declared.toInt < 0
  · rw [if_pos hneg]
    exact stable_fail _ b
  · rw [if_neg hneg]
    constructor
    · intro n rest h s
      rw [bind_eq_ok_iff] at h ⊢
      obtain ⟨left, mid, hleft, h⟩ := h
      obtain ⟨rfl, rfl⟩ := remaining_eq_ok_iff.1 hleft
      by_cases hfit : declared.toInt.toNat * least > b.length
      · rw [if_pos hfit] at h
        cases h
      · rw [if_neg hfit] at h
        have hfit' : ¬ declared.toInt.toNat * least > (b ++ s).length := by
          rw [List.length_append]
          omega
        refine ⟨_, _, remaining_eq_ok_iff.2 ⟨rfl, rfl⟩, ?_⟩
        rw [if_neg hfit']
        exact (stable_pure _ b).ok h s
    · intro e rest h he
      obtain h | ⟨left, mid, -, h⟩ := bind_eq_error_iff.1 h
      · cases h
      · by_cases hfit : declared.toInt.toNat * least > left
        · rw [if_pos hfit] at h
          cases h
          exact absurd (.countTooLarge _ _ _) he
        · rw [if_neg hfit] at h
          cases h

/-- Bytes that are all there are taken as they are. -/
theorem stableAt_take {n : Nat} {b : Bytes} (h : n ≤ b.length) : (take n).StableAt b where
  ok htake s := by
    cases htake
    rw [take, List.take_append_of_le_length h, List.drop_append_of_le_length h]
  error htake := by cases htake

/-- A text is taken as a whole or not at all, so no character of it is cut. -/
theorem stable_text (field : Field) : (text field).Stable := by
  intro b
  unfold text
  refine (stable_count field 1 b).bind fun n rest hcount => ?_
  obtain ⟨-, hfit, -⟩ := count_eq_ok_iff.1 hcount
  refine (stableAt_take (by omega)).bind fun raw rest' _ => ?_
  cases Utf8.decode? raw with
  | none => exact stable_fail _ rest'
  | some s => exact stable_pure s rest'

/-- A run of items is stable if one item is. -/
theorem stable_many {item : Reader α} (h : item.Stable) (n : Nat) : (many item n).Stable := by
  induction n with
  | zero => exact stable_pure []
  | succ n ih => exact h.bind fun a => ih.bind fun rest => stable_pure (a :: rest)

end Reader

end Wire

open Wire Wire.Reader

/-! ## the readers of the wire format -/

theorem GroupId.stable_reader : GroupId.reader.Stable := by
  refine (stable_int32 .groupType).bind fun code => ?_
  cases GroupType.ofCode? code with
  | none => exact stable_fail _
  | some groupType => exact (stable_int32 .groupId).bind fun id => stable_pure _

theorem Endpoint.stable_reader : Endpoint.reader.Stable :=
  (stable_text .endpointIp).bind fun _ => (stable_int32 .endpointPort).bind fun _ => stable_pure _

theorem Location.stable_reader : Location.reader.Stable :=
  (stable_int32 .dataNodeId).bind fun _ => Endpoint.stable_reader.bind fun _ => stable_pure _

theorem ReplicaSet.stable_reader : ReplicaSet.reader.Stable :=
  GroupId.stable_reader.bind fun _ =>
    (stable_count .locationCount Location.minLength).bind fun n =>
      (stable_many Location.stable_reader n).bind fun _ => stable_pure _

theorem StorageGroupSchema.stable_reader : StorageGroupSchema.reader.Stable :=
  (stable_text .storageGroupName).bind fun _ => (stable_int64 .ttl).bind fun _ =>
    (stable_int32 .schemaReplicationFactor).bind fun _ =>
      (stable_int32 .dataReplicationFactor).bind fun _ =>
        (stable_int64 .timePartitionInterval).bind fun _ => stable_pure _

namespace RegionGroupMap

/-- The names that were read decide about the order of the next one, and they are the same in both
runs. -/
theorem stable_entriesReader (n : Nat) (m : RegionGroupMap) : (entriesReader n m).Stable := by
  induction n generalizing m with
  | zero => exact stable_pure m
  | succ n ih =>
      refine (stable_text .storageGroupName).bind fun name => ?_
      by_cases hlast : (m.last?.any fun last => compare name last.1 != .gt) = true
      · rw [if_pos hlast]
        exact stable_fail _
      · rw [if_neg hlast]
        exact (stable_count .replicaSetCount ReplicaSet.minLength).bind fun count =>
          (stable_many ReplicaSet.stable_reader count).bind fun sets => ih (m.insert name sets)

theorem stable_reader : RegionGroupMap.reader.Stable :=
  (stable_count .storageGroupCount minEntryLength).bind fun n => stable_entriesReader n _

end RegionGroupMap

namespace Command

theorem stable_payloadReader (k : CommandKind) : (payloadReader k).Stable := by
  cases k with
  | registerDataNode => exact Location.stable_reader.bind fun _ => stable_pure _
  | setStorageGroup => exact StorageGroupSchema.stable_reader.bind fun _ => stable_pure _
  | deleteStorageGroup => exact (stable_text .storageGroupName).bind fun _ => stable_pure _
  | createRegionGroups => exact RegionGroupMap.stable_reader.bind fun _ => stable_pure _

theorem stable_reader : Command.reader.Stable := by
  refine (stable_int32 .kindTag).bind fun tag => ?_
  cases CommandKind.ofTag tag with
  | error e => exact stable_fail e
  | ok kind => exact stable_payloadReader kind

/-! ## prefixes of commands -/

/-- A strict prefix of a command is refused for want of bytes. -/
theorem decode_of_prefix {p b : Bytes} {c : Command} (h : decode b = .ok c) (hp : p <+: b)
    (hne : p ≠ b) : ∃ e, decode p = .error e ∧ e.IsShortage := by
  obtain ⟨s, rfl⟩ := hp
  have hwhole : reader (p ++ s) = (.ok c, []) := decode_eq_ok_iff_reader.1 h
  cases hread : reader p with
  | mk result rest =>
      cases result with
      | ok c' =>
          -- what the prefix leaves would be left of the whole, with the rest of it behind
          have hlonger := (stable_reader p).ok hread s
          rw [hwhole, Prod.mk.injEq] at hlonger
          have hs : s = [] := (List.append_eq_nil_iff.1 hlonger.2.symm).2
          rw [hs, List.append_nil] at hne
          exact absurd rfl hne
      | error e =>
          have hdecode : decode p = .error e := by rw [decode, hread]
          by_cases he : e.IsShortage
          · exact ⟨e, hdecode, he⟩
          · have hlonger := (stable_reader p).error hread he s
            rw [hwhole] at hlonger
            cases hlonger

/-- **Stability**: with more bytes behind them, bytes that are read as a command, or as a part of
one, are read as the same and leave the same, with the additional bytes behind it; and bytes that
are refused are refused for the same reason, unless it was that some are missing.  A strict prefix
of an accepted command is never accepted, and always refused because bytes are missing. -/
theorem reader_append :
    (∀ p s c rest, reader p = (.ok c, rest) → reader (p ++ s) = (.ok c, rest ++ s)) ∧
    (∀ p s e rest, reader p = (.error e, rest) →
      (∀ field needed left, e ≠ .truncated field needed left) →
      (∀ field count left, e ≠ .countTooLarge field count left) →
        reader (p ++ s) = (.error e, rest ++ s)) ∧
    (∀ b c p, decode b = .ok c → p <+: b → p ≠ b →
      (∃ field needed left, decode p = .error (.truncated field needed left)) ∨
        ∃ field count left, decode p = .error (.countTooLarge field count left)) ∧
    GroupId.reader.Stable ∧ Endpoint.reader.Stable ∧ Location.reader.Stable ∧
      ReplicaSet.reader.Stable := by
  refine ⟨fun p s c rest h => (stable_reader p).ok h s, fun p s e rest h htruncated hcount => ?_,
    fun b c p h hp hne => ?_, GroupId.stable_reader, Endpoint.stable_reader, Location.stable_reader,
    ReplicaSet.stable_reader⟩
  · refine (stable_reader p).error h (fun he => ?_) s
    cases he with
    | truncated field needed left => exact htruncated field needed left rfl
    | countTooLarge field count left => exact hcount field count left rfl
  · obtain ⟨e, hdecode, he⟩ := decode_of_prefix h hp hne
    cases he with
    | truncated field needed left => exact .inl ⟨field, needed, left, hdecode⟩
    | countTooLarge field count left => exact .inr ⟨field, count, left, hdecode⟩

/-- A command whose name is one character of two bytes. -/
def accented : Bytes := [0, 0, 0, 2, 0, 0, 0, 2, 0xC3, 0xA9]

/-- That command, cut inside the character. -/
def accentedCut : Bytes := [0, 0, 0, 2, 0, 0, 0, 2, 0xC3]

/-- A command with two storage groups in the wrong order, up to the second name. -/
def wrongOrder : Bytes :=
  [0, 0, 0, 3, 0, 0, 0, 2, 0, 0, 0, 3, 98, 98, 98, 0, 0, 0, 0, 0, 0, 0, 1, 97]

theorem reader_append_accented :
    reader accented = (.ok (.deleteStorageGroup "é"), []) ∧
      reader (accented ++ [7]) = (.ok (.deleteStorageGroup "é"), [] ++ [7]) ∧
    reader wrongOrder = (.error (.nonCanonicalOrder "a"), []) ∧
      reader (wrongOrder ++ [0, 0]) = (.error (.nonCanonicalOrder "a"), [] ++ [0, 0]) ∧
    accentedCut <+: accented ∧ accentedCut ≠ accented ∧
      ((∃ field needed left, decode accentedCut = .error (.truncated field needed left)) ∨
        ∃ field count left, decode accentedCut = .error (.countTooLarge field count left)) := by
  obtain ⟨hok, herror, hprefix, -⟩ := reader_append
  have hdecode : decode accented = .ok (.deleteStorageGroup "é") := by decide +kernel
  have hread : reader accented = (.ok (.deleteStorageGroup "é"), []) :=
    decode_eq_ok_iff_reader.1 hdecode
  have horder : reader wrongOrder = (.error (.nonCanonicalOrder "a"), []) := by decide +kernel
  have hcut : accentedCut <+: accented := ⟨[0xA9], rfl⟩
  have hne : accentedCut ≠ accented := by decide
  exact ⟨hread, hok _ _ _ _ hread, horder,
    herror _ _ _ _ horder (fun _ _ _ h => by cases h) (fun _ _ _ h => by cases h), hcut, hne,
    hprefix _ _ _ hdecode hcut hne⟩

end Command

end ControlPlane
