import ControlPlane.Proofs.Command.Canonical
import ControlPlane.Proofs.Command.RoundTrip
import Mathlib.Data.List.Dedup

/-!
# ControlPlane.Proofs.Command.Builder

A command for region groups is built by adding one replica set after the other.  What comes of it
is, for each storage group, the replica sets that were added to it, in the order of the calls
(`get?_build`); in which order the calls went from one storage group to another leaves no trace.
Since the encoding of a command gives the command back, this is as true of the bytes: whoever adds
the same replica sets to each storage group writes the same log entry, and nobody else does.
-/

namespace ControlPlane

open Wire

namespace RegionGroupMap

/-- The replica sets that a sequence of calls adds to a storage group, in order. -/
def addedTo (name : String) (calls : List (String × ReplicaSet)) : List ReplicaSet :=
  (calls.filter fun call => call.1 = name).map (·.2)

@[simp] theorem addedTo_nil (name : String) : addedTo name [] = [] := rfl

theorem addedTo_cons (name : String) (call : String × ReplicaSet)
    (calls : List (String × ReplicaSet)) :
    addedTo name (call :: calls)
      = if call.1 = name then call.2 :: addedTo name calls else addedTo name calls := by
  by_cases h : call.1 = name <;> simp [addedTo, h]

/-- Nothing is added to a storage group that no call names. -/
theorem addedTo_eq_nil_iff {name : String} {calls : List (String × ReplicaSet)} :
    addedTo name calls = [] ↔ name ∉ calls.map (·.1) := by
  simp only [addedTo, List.map_eq_nil_iff, List.filter_eq_nil_iff, decide_eq_true_iff,
    List.mem_map, not_exists, not_and]

/-! ## the map that is built -/

theorem get?_add (m : RegionGroupMap) (name : String) (r : ReplicaSet) (j : String) :
    (m.add name r).get? j
      = if j = name then some ((m.get? name).getD [] ++ [r]) else m.get? j := by
  simp [add]

/-- Further calls append, in each storage group that they name, to what it has. -/
theorem get?_foldl_add (calls : List (String × ReplicaSet)) (m : RegionGroupMap) (name : String) :
    (calls.foldl (fun m call => add m call.1 call.2) m).get? name
      = if addedTo name calls = [] then m.get? name
        else some ((m.get? name).getD [] ++ addedTo name calls) := by
  induction calls generalizing m with
  | nil => simp
  | cons call calls ih =>
      rw [List.foldl_cons, ih, get?_add, addedTo_cons]
      by_cases hname : call.1 = name
      · subst hname
        by_cases hrest : addedTo call.1 calls = [] <;> simp [hrest]
      · rw [if_neg (Ne.symm hname), if_neg hname]

/-- **The map that is built** has, for each storage group that is named, what was added to it. -/
theorem get?_build (calls : List (String × ReplicaSet)) (name : String) :
    (build calls).get? name
      = if name ∈ calls.map (·.1) then some (addedTo name calls) else none := by
  rw [build, get?_foldl_add, SortedMap.get?_empty]
  by_cases h : name ∈ calls.map (·.1)
  · rw [if_neg (mt addedTo_eq_nil_iff.1 (not_not.2 h)), if_pos h, Option.getD_none,
      List.nil_append]
  · rw [if_pos (addedTo_eq_nil_iff.2 h), if_neg h]

/-- The storage groups of the map are those that are named. -/
theorem mem_keys_build {calls : List (String × ReplicaSet)} {name : String} :
    name ∈ (build calls).keys ↔ name ∈ calls.map (·.1) := by
  rw [SortedMap.mem_keys_iff, get?_build]
  by_cases h : name ∈ calls.map (·.1) <;> simp [h]

/-- There are as many as names, each counted once. -/
theorem size_build (calls : List (String × ReplicaSet)) :
    (build calls).size = (calls.map (·.1)).dedup.length := by
  have hkeys : (build calls).keys.Nodup := by
    refine ((build calls).ordered.map _ fun a b hab => ?_ : (build calls).keys.Pairwise (· ≠ ·))
    intro heq
    simp [heq] at hab
  have hperm : (build calls).keys.Perm (calls.map (·.1)).dedup :=
    (List.perm_ext_iff_of_nodup hkeys (List.nodup_dedup _)).2 fun name => by
      rw [mem_keys_build, List.mem_dedup]
  rw [← hperm.length_eq, SortedMap.keys, List.length_map, SortedMap.size]

/-- Two sequences of calls build the same map if they add the same to each storage group. -/
theorem build_eq_build_iff {calls calls' : List (String × ReplicaSet)} :
    build calls = build calls' ↔ ∀ name, addedTo name calls = addedTo name calls' := by
  have hadded (calls : List (String × ReplicaSet)) (name : String) :
      addedTo name calls = ((build calls).get? name).getD [] := by
    rw [get?_build]
    by_cases h : name ∈ calls.map (·.1)
    · rw [if_pos h, Option.getD_some]
    · rw [if_neg h, Option.getD_none, addedTo_eq_nil_iff.2 h]
  constructor
  · intro h name
    rw [hadded calls, hadded calls', h]
  · intro h
    refine SortedMap.ext_get? fun name => ?_
    have hnamed : name ∈ calls.map (·.1) ↔ name ∈ calls'.map (·.1) := by
      rw [← not_iff_not, ← addedTo_eq_nil_iff, ← addedTo_eq_nil_iff, h]
    simp only [get?_build, hnamed, h]

end RegionGroupMap

namespace Command

/-! ## the bytes of the command -/

/-- Commands with the same bytes are the same. -/
theorem eq_of_encode_eq {c c' : Command} {b : Bytes} (h : c.encode = .ok b)
    (h' : c'.encode = .ok b) : c = c' := by
  have hdecode := decode_eq_ok_iff_encode.2 h
  rw [decode_eq_ok_iff_encode.2 h', Except.ok.injEq] at hdecode
  exact hdecode.symm

/-- The bytes of a command for region groups, cut behind each key. -/
theorem exists_rawEntries_of_encode {m : RegionGroupMap} {b : Bytes}
    (h : (Command.createRegionGroups m).encode = .ok b) :
    ∃ raws : List (Bytes × Bytes),
      b = putInt32 CommandKind.createRegionGroups.tag ++
        (putInt32 (Int32.ofNat raws.length) ++ raws.flatMap RegionGroupMap.joinRaw) ∧
      List.Forall₂ RegionGroupMap.RawEntry raws m.entries := by
  obtain ⟨payload, hpayload, rfl⟩ := encode_eq_ok_iff.1 h
  obtain ⟨entries, -, hentries, rfl⟩ := RegionGroupMap.encode_eq_ok_iff.1 hpayload
  obtain ⟨raws, rfl, hraws⟩ := RegionGroupMap.exists_rawEntries hentries
  exact ⟨raws, by rw [hraws.length_eq]; rfl, hraws⟩

/-- The command that is built by adding these replica sets in order. -/
def built (calls : List (String × ReplicaSet)) : Command :=
  .createRegionGroups (RegionGroupMap.build calls)

theorem built_eq_built_iff {calls calls' : List (String × ReplicaSet)} :
    built calls = built calls' ↔
      ∀ name, RegionGroupMap.addedTo name calls = RegionGroupMap.addedTo name calls' := by
  rw [built, built, Command.createRegionGroups.injEq, RegionGroupMap.build_eq_build_iff]

/-- **Only the order within a storage group counts.**  Two sequences of calls build the same command
exactly if they add the same replica sets in the same order to each storage group, and exactly then
the bytes of the one command are the bytes of the other; a command has bytes if its lengths and
counts fit their fields.  The map of the command has the storage groups that are named, no others,
each with what was added to it in the order of the calls, and it counts each name once.  Its bytes
list the names in strictly increasing byte order. -/
theorem encode_built_eq_iff (calls calls' : List (String × ReplicaSet)) :
    (built calls = built calls' ↔
      ∀ name, RegionGroupMap.addedTo name calls = RegionGroupMap.addedTo name calls') ∧
    (∀ b, (built calls).encode = .ok b →
      ((built calls').encode = .ok b ↔
        ∀ name, RegionGroupMap.addedTo name calls = RegionGroupMap.addedTo name calls')) ∧
    ((∃ b, (built calls).encode = .ok b) ↔ (built calls).Fits) ∧
    (∀ name, (RegionGroupMap.build calls).get? name
      = if name ∈ calls.map (·.1) then some (RegionGroupMap.addedTo name calls) else none) ∧
    (∀ name, name ∈ (RegionGroupMap.build calls).keys ↔ name ∈ calls.map (·.1)) ∧
    (RegionGroupMap.build calls).size = (calls.map (·.1)).dedup.length ∧
    (∀ b, (built calls).encode = .ok b →
      ∃ raws : List (Bytes × Bytes),
        b = putInt32 CommandKind.createRegionGroups.tag ++
          (putInt32 (Int32.ofNat raws.length) ++ raws.flatMap RegionGroupMap.joinRaw) ∧
        List.Forall₂ RegionGroupMap.RawEntry raws (RegionGroupMap.build calls).entries ∧
        raws.map (·.1) = (RegionGroupMap.build calls).keys.map Utf8.encode ∧
        (raws.map (·.1)).Pairwise (· < ·)) := by
  refine ⟨built_eq_built_iff, fun b hb => ?_, exists_encode_iff_fits,
    RegionGroupMap.get?_build calls, fun name => RegionGroupMap.mem_keys_build,
    RegionGroupMap.size_build calls, fun b hb => ?_⟩
  · rw [← built_eq_built_iff]
    constructor
    · intro hb'
      exact eq_of_encode_eq hb hb'
    · intro h
      rw [← h, hb]
  · obtain ⟨raws, hbytes, hraws⟩ := exists_rawEntries_of_encode hb
    refine ⟨raws, hbytes, hraws, ?_, RegionGroupMap.pairwise_rawKeys hraws⟩
    rw [RegionGroupMap.map_fst_of_rawEntries hraws, SortedMap.keys, List.map_map]
    rfl

/-- Calls that go back and forth between two storage groups. -/
def alternating : List (String × ReplicaSet) :=
  [("é", ⟨⟨.dataRegion, 2⟩, []⟩), ("e", ⟨⟨.dataRegion, 3⟩, []⟩), ("é", ⟨⟨.dataRegion, 1⟩, []⟩)]

/-- The same calls, one storage group after the other. -/
def grouped : List (String × ReplicaSet) :=
  [("é", ⟨⟨.dataRegion, 2⟩, []⟩), ("é", ⟨⟨.dataRegion, 1⟩, []⟩), ("e", ⟨⟨.dataRegion, 3⟩, []⟩)]

theorem encode_built_eq_iff_alternating :
    ∃ b, (built alternating).encode = .ok b ∧ (built grouped).encode = .ok b ∧
      (built alternating.reverse).encode ≠ .ok b ∧
      (RegionGroupMap.build alternating).size = 2 := by
  obtain ⟨-, hsame, hfits, -, -, hsize, -⟩ := encode_built_eq_iff alternating grouped
  obtain ⟨-, hreverse, -⟩ := encode_built_eq_iff alternating alternating.reverse
  obtain ⟨b, hb⟩ := hfits.2 (by decide)
  refine ⟨b, hb, (hsame b hb).2 fun name => ?_, fun h => ?_, hsize⟩
  · by_cases hname : "é" = name
    · subst hname
      decide
    · simp [alternating, grouped, RegionGroupMap.addedTo_cons, hname]
  · exact absurd ((hreverse b hb).1 h "é") (by decide)

end Command

end ControlPlane
