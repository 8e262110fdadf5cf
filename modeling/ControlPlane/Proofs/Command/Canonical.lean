import ControlPlane.Proofs.Command.Inverse
import ControlPlane.Proofs.Text.Order
import Mathlib.Data.List.Forall2

/-!
# ControlPlane.Proofs.Command.Canonical

The wire format is canonical: a byte string that is accepted is the one written form of what it is
read as, so no two byte strings mean the same command.  In the payload of a command that creates
region groups this shows in the raw keys, which increase strictly as byte strings
(`exists_rawEntries`).
-/

namespace ControlPlane

open Wire

namespace RegionGroupMap

/-- The entry of a storage group on the wire, cut behind its key: the raw key, and its replica sets
behind their count. -/
def RawEntry (raw : Bytes × Bytes) (p : String × List ReplicaSet) : Prop :=
  raw.1 = Utf8.encode p.1 ∧
    ∃ sets, putMany ReplicaSet.encode p.2 = .ok sets ∧
      raw.2 = putInt32 (Int32.ofNat p.2.length) ++ sets

/-- The bytes of an entry that was cut behind its key. -/
def joinRaw (raw : Bytes × Bytes) : Bytes :=
  putInt32 (Int32.ofNat raw.1.length) ++ (raw.1 ++ raw.2)

/-- The bytes of entries, cut behind each key. -/
theorem exists_rawEntries {l : List (String × List ReplicaSet)} {e : Bytes}
    (h : putMany encodeEntry l = .ok e) :
    ∃ raws, e = raws.flatMap joinRaw ∧ List.Forall₂ RawEntry raws l := by
  induction l generalizing e with
  | nil =>
      cases h
      exact ⟨[], rfl, .nil⟩
  | cons p l ih =>
      obtain ⟨head, tail, hhead, htail, rfl⟩ := putMany_cons_eq_ok_iff.1 h
      obtain ⟨name, sets, hname, -, hsets, rfl⟩ := encodeEntry_eq_ok_iff.1 hhead
      obtain ⟨-, rfl⟩ := putText_eq_ok_iff.1 hname
      obtain ⟨raws, rfl, hraws⟩ := ih htail
      refine ⟨(Utf8.encode p.1, putInt32 (Int32.ofNat p.2.length) ++ sets) :: raws, ?_,
        .cons ⟨rfl, sets, hsets, rfl⟩ hraws⟩
      simp only [List.flatMap_cons, joinRaw, List.append_assoc]

theorem map_fst_of_rawEntries {raws : List (Bytes × Bytes)} {l : List (String × List ReplicaSet)}
    (h : List.Forall₂ RawEntry raws l) :
    raws.map (·.1) = l.map fun p => Utf8.encode p.1 := by
  induction h with
  | nil => rfl
  | cons hp _ ih => rw [List.map_cons, List.map_cons, hp.1, ih]

/-- The raw keys of a map increase strictly as byte strings. -/
theorem pairwise_rawKeys {raws : List (Bytes × Bytes)} {m : RegionGroupMap}
    (h : List.Forall₂ RawEntry raws m.entries) : (raws.map (·.1)).Pairwise (· < ·) := by
  have hkeys := m.pairwise_encode_keys
  rw [SortedMap.keys, List.map_map] at hkeys
  rwa [map_fst_of_rawEntries h]

end RegionGroupMap

namespace Command

/-- **Canonical form**: bytes are accepted as a command exactly if the command is written as these
bytes, so equal commands come from equal bytes.  The raw keys of an accepted map of region groups
increase strictly in unsigned byte order.  Whatever the readers of the parts accept is the written
form of what they return, followed by what they leave. -/
theorem decode_canonical :
    (∀ b c, decode b = .ok c ↔ c.encode = .ok b) ∧
    (∀ b b' c, decode b = .ok c → decode b' = .ok c → b = b') ∧
    (∀ b m, decode b = .ok (.createRegionGroups m) →
      ∃ raws : List (Bytes × Bytes),
        b = putInt32 CommandKind.createRegionGroups.tag ++
          (putInt32 (Int32.ofNat raws.length) ++ raws.flatMap RegionGroupMap.joinRaw) ∧
        List.Forall₂ RegionGroupMap.RawEntry raws m.entries ∧
        (raws.map (·.1)).Pairwise (· < ·)) ∧
    (∀ b v rest, GroupId.reader b = (.ok v, rest) → ∃ e, v.encode = .ok e ∧ b = e ++ rest) ∧
    (∀ b v rest, Endpoint.reader b = (.ok v, rest) → ∃ e, v.encode = .ok e ∧ b = e ++ rest) ∧
    (∀ b v rest, Location.reader b = (.ok v, rest) → ∃ e, v.encode = .ok e ∧ b = e ++ rest) ∧
    (∀ b v rest, ReplicaSet.reader b = (.ok v, rest) →
      ∃ e, v.encode = .ok e ∧ b = e ++ rest) := by
  refine ⟨fun b c => decode_eq_ok_iff_encode, ?_, ?_, fun b v rest => (GroupId.reader_inverts b v
    rest).1, fun b v rest => (Endpoint.reader_inverts b v rest).1, fun b v rest =>
    (Location.reader_inverts b v rest).1, fun b v rest => (ReplicaSet.reader_inverts b v rest).1⟩
  · intro b b' c h h'
    have hb := decode_eq_ok_iff_encode.1 h
    rw [decode_eq_ok_iff_encode.1 h'] at hb
    cases hb
    rfl
  · intro b m h
    obtain ⟨payload, hpayload, rfl⟩ := encode_eq_ok_iff.1 (decode_eq_ok_iff_encode.1 h)
    obtain ⟨entries, -, hentries, rfl⟩ := RegionGroupMap.encode_eq_ok_iff.1 hpayload
    obtain ⟨raws, rfl, hraws⟩ := RegionGroupMap.exists_rawEntries hentries
    refine ⟨raws, ?_, hraws, RegionGroupMap.pairwise_rawKeys hraws⟩
    rw [hraws.length_eq]
    rfl

/-- A command with two storage groups whose names share their first byte. -/
def twoKeys : Bytes :=
  [0, 0, 0, 3, 0, 0, 0, 2, 0, 0, 0, 2, 0xC3, 0xA8, 0, 0, 0, 0, 0, 0, 0, 2, 0xC3, 0xA9, 0, 0, 0, 0]

/-- The storage groups of that command. -/
def twoGroups : RegionGroupMap := SortedMap.ofList [("é", []), ("è", [])]

theorem decode_canonical_twoKeys :
    decode twoKeys = .ok (.createRegionGroups twoGroups) ∧
      (Command.createRegionGroups twoGroups).encode = .ok twoKeys ∧
      (∃ raws : List (Bytes × Bytes),
        twoKeys = putInt32 CommandKind.createRegionGroups.tag ++
          (putInt32 (Int32.ofNat raws.length) ++ raws.flatMap RegionGroupMap.joinRaw) ∧
        List.Forall₂ RegionGroupMap.RawEntry raws twoGroups.entries ∧
        (raws.map (·.1)).Pairwise (· < ·)) ∧
      GroupId.reader [0, 0, 0, 1, 255, 255, 255, 255, 7] = (.ok ⟨.dataRegion, -1⟩, [7]) ∧
      ∃ e, (GroupId.mk .dataRegion (-1)).encode = .ok e ∧
        [0, 0, 0, 1, 255, 255, 255, 255, 7] = e ++ [7] := by
  have hkeys : decode twoKeys = .ok (.createRegionGroups twoGroups) := by decide +kernel
  have hid : GroupId.reader [0, 0, 0, 1, 255, 255, 255, 255, 7] =
      (.ok ⟨.dataRegion, -1⟩, [7]) := by decide
  exact ⟨hkeys, (decode_canonical.1 _ _).1 hkeys, decode_canonical.2.2.1 _ _ hkeys, hid,
    decode_canonical.2.2.2.1 _ _ _ hid⟩

end Command

end ControlPlane
