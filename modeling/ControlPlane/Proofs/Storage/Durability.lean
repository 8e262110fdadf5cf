import ControlPlane.Proofs.Storage.Operation
import Mathlib.Data.Set.List

/-!
# ControlPlane.Proofs.Storage.Durability

Closing a storage and opening its disk again cannot be observed.  All that a disk holds was written
as a value and is read back as that value (`Intact`), the number of snapshots in memory is the one
on disk (`Numbered`), and so is the state (`InSync`).  Every operation keeps the three, wherever it
stops, so they hold whatever was done before (`Reachable.sound`); and together they determine the
storage that is opened (`Sound.open?_eq`).
-/

namespace ControlPlane.Storage

open Consensus
open Json (parseBytes writeBytes parseBytes_writeBytes)

/-! ## what a disk holds -/

/-- The bytes of a value that is stored under a name. -/
def Stored : Key → Bytes → Prop
  | .vote, bytes => ∃ v : Vote, bytes = Fixed.put v
  | .lastPurged, bytes => ∃ id : LogId, bytes = Fixed.put id
  | .applied, bytes => ∃ a : Applied, bytes = writeBytes a
  | .snapshotIndex, bytes => ∃ n : UInt64, bytes = Fixed.put n
  | .currentSnapshot, bytes => ∃ snapshot : Snapshot, bytes = writeBytes snapshot

/-- The bytes of an entry that is stored at its index. -/
def Logged (index : UInt64) (bytes : Bytes) : Prop :=
  ∃ e : Entry, e.logId.index = index ∧ bytes = writeBytes e

/-- A disk that holds nothing but what was stored there. -/
structure Intact (d : Disk) : Prop where
  values : d.All Stored
  log : ∀ index bytes, d.log.get? index = some bytes → Logged index bytes

/-- A write that stores a value under its name, or an entry at its index. -/
structure Write.Intact (w : Write) : Prop where
  puts : w.Puts Stored
  logs : ∀ index bytes, w = .putEntry index bytes → Logged index bytes

theorem intact_empty : Intact Disk.empty where
  values := Disk.All.empty
  log index bytes h := by
    have hnone : Disk.empty.log.get? index = none := SortedMap.get?_empty index
    rw [hnone] at h
    cases h

namespace Intact

variable {d : Disk}

theorem write (hd : Intact d) {w : Write} (hw : w.Intact) : Intact (d.write w) where
  values := hd.values.write hw.puts
  log index bytes h := by
    cases w with
    | putEntry i b =>
        simp only [Disk.write, SortedMap.get?_insert] at h
        by_cases hi : compare index i = .eq
        · rw [if_pos hi, Option.some.injEq] at h
          have hindex : index = i := Std.LawfulEqCmp.eq_of_compare hi
          rw [hindex, ← h]
          exact hw.logs i b rfl
        · rw [if_neg hi] at h
          exact hd.log index bytes h
    | removeEntry i =>
        simp only [Disk.write, SortedMap.get?_erase] at h
        by_cases hi : (compare i index != .eq) = true
        · rw [if_pos hi] at h
          exact hd.log index bytes h
        · rw [if_neg hi] at h
          cases h
    | putValue key b => exact hd.log index bytes h
    | putValues values =>
        rw [log_write (w := .putValues values) trivial] at h
        exact hd.log index bytes h

theorem writeAll (hd : Intact d) {writes : List Write} (h : ∀ w ∈ writes, w.Intact) :
    Intact (d.writeAll writes) := by
  unfold Disk.writeAll
  induction writes generalizing d with
  | nil => exact hd
  | cons w rest ih =>
      obtain ⟨hw, hrest⟩ := List.forall_mem_cons.1 h
      exact ih (hd.write hw) hrest

end Intact

/-- Whatever an operation writes can be read back. -/
theorem Operation.intact_of_mem {s : Storage} {op : Operation} {w : Write}
    (hw : w ∈ op.writes s) : w.Intact where
  puts := by
    cases mayWrite_of_mem hw with
    | append e => trivial
    | truncate index => trivial
    | note => exact ⟨_, rfl⟩
    | purge index => trivial
    | saveVote => exact ⟨_, rfl⟩
    | apply a => exact ⟨a, rfl⟩
    | number n => exact ⟨n, rfl⟩
    | build snapshot => exact ⟨snapshot, rfl⟩
    | install a => exact Write.puts_pair.2 ⟨⟨a, rfl⟩, ⟨_, rfl⟩⟩
  logs index bytes heq := by
    subst heq
    cases mayWrite_of_mem hw with
    | append e => exact ⟨e, rfl, rfl⟩

/-! ## numbers of snapshots -/

theorem Numbered.eq {d : Disk} {n m : UInt64} (hn : Numbered d n) (hm : Numbered d m) : n = m := by
  rcases hn with ⟨hn, rfl⟩ | hn <;> rcases hm with ⟨hm, rfl⟩ | hm
  · rfl
  · rw [hn] at hm
    cases hm
  · rw [hm] at hn
    cases hn
  · rw [hn, Option.some.injEq] at hm
    have hget : Fixed.get? (Fixed.put n) = some m := by rw [hm, Fixed.get?_put]
    rw [Fixed.get?_put, Option.some.injEq] at hget
    exact hget

/-- Only a snapshot that is built takes a number. -/
theorem snapshots_run {op : Operation} (h : op ≠ .build) (s : Storage) :
    (op.run s).snapshots = s.snapshots := by
  cases op with
  | append entries => rfl
  | truncate from' => rfl
  | purge upTo => rfl
  | saveVote v => rfl
  | apply entries =>
      simp only [Operation.run, Storage.apply]
      cases loadApplied s.disk with
      | error error => rfl
      | ok a =>
          show (s.applyFrom a.membership entries).2.snapshots = _
          rw [applyFrom_eq_foldl entries (a := { a with state := s.state }) rfl]
          exact snapshots_foldl_store _ s
  | build => exact absurd rfl h
  | install snapshot =>
      simp only [Operation.run, installSnapshot]
      cases parseBytes (α := State) snapshot.data <;> rfl

/-- The number of snapshots in memory stays the one on disk. -/
theorem numbered_run {s : Storage} (h : Numbered s.disk s.snapshots) (op : Operation) :
    Numbered (op.run s).disk (op.run s).snapshots := by
  by_cases hop : op = .build
  · subst hop
    simp only [Operation.run, buildSnapshot]
    cases loadApplied s.disk with
    | error error => exact h
    | ok a => exact .inr rfl
  · have hkey : Key.snapshotIndex ∉ op.touches := by
      cases op <;> simp_all [Operation.touches]
    unfold Numbered
    rw [snapshots_run hop, Operation.value_run hkey]
    exact h

/-! ## opening -/

theorem Stored.readable {key : Key} {bytes : Bytes} (h : Stored key bytes) :
    Readable key bytes := by
  cases key with
  | applied => exact h
  | snapshotIndex => exact h
  | vote => trivial
  | lastPurged => trivial
  | currentSnapshot => trivial

/-- A storage whose disk is intact and agrees with its memory. -/
structure Sound (s : Storage) : Prop where
  intact : Intact s.disk
  inSync : s.InSync
  numbered : Numbered s.disk s.snapshots

/-- A storage is determined by its disk: opening that gives it back, under the policy with which it
is opened. -/
theorem Sound.open?_eq {s : Storage} (hs : Sound s) (policy : DecodePolicy) :
    open? s.disk policy = some { s with policy } := by
  have hreadable : s.disk.All Readable := fun key bytes h => (hs.intact.values key bytes h).readable
  obtain ⟨a, n, hload, hn, hopen⟩ := open?_eq_of_readable hreadable
  obtain ⟨b, hb, hstate⟩ := hs.inSync
  have hab : a = b := Except.ok.inj (hload.symm.trans hb)
  have hns : n = s.snapshots := hn.eq hs.numbered
  rw [hopen policy, hab, hstate, hns]

/-- A disk that is intact is opened as a sound storage. -/
theorem Intact.sound_of_open? {d : Disk} (hd : Intact d) {policy : DecodePolicy} {s : Storage}
    (h : open? d policy = some s) : Sound s := by
  have hreadable : d.All Readable := fun key bytes h => (hd.values key bytes h).readable
  obtain ⟨a, n, hload, hn, hopen⟩ := open?_eq_of_readable hreadable
  rw [hopen policy, Option.some.injEq] at h
  subst h
  exact ⟨hd, ⟨a, hload, rfl⟩, hn⟩

/-- **Every operation** keeps a storage sound. -/
theorem Sound.run {s : Storage} (hs : Sound s) (op : Operation) : Sound (op.run s) where
  intact := by
    rw [Operation.run_disk]
    exact hs.intact.writeAll fun w hw => Operation.intact_of_mem hw
  inSync := hs.inSync.run op
  numbered := numbered_run hs.numbered op

/-! ## everything that can be reached -/

/-- The storages that can be reached from a new disk.  In any order, operations are done, whatever
they are asked and whether they succeed or not, the storage is closed and its disk opened again, or
it stops between two writes of an operation and its disk is opened again. -/
inductive Reachable : Storage → Prop
  | start {s : Storage} (policy : DecodePolicy) (h : open? Disk.empty policy = some s) : Reachable s
  | run {s : Storage} (h : Reachable s) (op : Operation) : Reachable (op.run s)
  | reopen {s s' : Storage} (h : Reachable s) {policy : DecodePolicy}
      (hs : open? s.disk policy = some s') : Reachable s'
  | interrupt {s s' : Storage} (h : Reachable s) (op : Operation) (done : Nat)
      {policy : DecodePolicy}
      (hs : open? (s.disk.writeAll ((op.writes s).take done)) policy = some s') : Reachable s'

/-- **Whatever was done before**, a storage is sound. -/
theorem Reachable.sound {s : Storage} (h : Reachable s) : Sound s := by
  induction h with
  | start policy h => exact intact_empty.sound_of_open? h
  | run h op ih => exact ih.run op
  | reopen h hs ih => exact ih.intact.sound_of_open? hs
  | interrupt h op done hs ih =>
      refine Intact.sound_of_open? (ih.intact.writeAll fun w hw => ?_) hs
      exact Operation.intact_of_mem (List.mem_of_mem_take hw)

/-! ## questions -/

/-- The position of an entry in the log, and its bytes. -/
def logged (e : Entry) : UInt64 × Bytes := (e.logId.index, writeBytes e)

/-- A log of entries, each at its own index, is a list of them. -/
theorem exists_listed {d : Disk}
    (hd : ∀ index bytes, d.log.get? index = some bytes → Logged index bytes) :
    ∃ listed : List Entry, d.log.entries = listed.map logged := by
  have hmem : d.log.entries ∈ Set.range (List.map logged) := by
    rw [Set.range_list_map]
    intro p hp
    have hget : d.log.get? p.1 = some p.2 := SortedMap.get?_eq_some_iff.2 hp
    obtain ⟨e, hindex, hbytes⟩ := hd p.1 p.2 hget
    exact ⟨e, by rw [logged, hindex, ← hbytes]⟩
  obtain ⟨listed, hlisted⟩ := hmem
  exact ⟨listed, hlisted.symm⟩

/-- Reading stored entries gives them, up to the first that is outside the range. -/
theorem readWhile_map_logged (inRange : UInt64 → Bool) (l : List Entry) :
    readWhile inRange (l.map logged) = .ok (l.takeWhile fun e => inRange e.logId.index) := by
  induction l with
  | nil => rfl
  | cons e rest ih =>
      rw [List.map_cons, logged, readWhile]
      simp only [parseBytes_writeBytes]
      by_cases he : inRange e.logId.index = true
      · rw [if_pos he, ih, List.takeWhile_cons, if_pos he]
        rfl
      · rw [if_neg he, List.takeWhile_cons, if_neg he]

/-- A range of the log is read from the entries that the log lists. -/
theorem entries_of_listed {s : Storage} {listed : List Entry}
    (h : s.disk.log.entries = listed.map logged) (low high : Bound) :
    s.entries low high = .ok ((listed.filter fun e => low.start ≤ e.logId.index).takeWhile fun e =>
      low.allowsFrom e.logId.index && high.allowsTo e.logId.index) := by
  have hfilter : (listed.map logged).filter (fun p => low.start ≤ p.1)
      = (listed.filter fun e => low.start ≤ e.logId.index).map logged := by
    rw [List.filter_map]
    rfl
  rw [entries, h, hfilter, readWhile_map_logged]

/-- The state of the log is that of the entries that the log lists. -/
theorem logState_of_listed {s : Storage} {listed : List Entry}
    (h : s.disk.log.entries = listed.map logged) {lastPurged : Option LogId}
    (hpurged : readFixed s.disk .lastPurged .logs = .ok lastPurged) :
    s.logState
      = .ok ⟨lastPurged, (listed.getLast?.map (·.logId)).or lastPurged⟩ := by
  have hlast : s.disk.log.last? = listed.getLast?.map logged := by
    rw [SortedMap.last?, h, List.getLast?_map]
  rw [logState, hpurged]
  cases hl : listed.getLast? with
  | none =>
      rw [hl, Option.map_none] at hlast
      simp only [hlast]
      rfl
  | some e =>
      rw [hl, Option.map_some] at hlast
      simp only [hlast, logged, parseBytes_writeBytes]
      rfl

/-- Every question to a storage is answered. -/
structure Answers (s : Storage) : Prop where
  applied : ∃ last membership, s.applied = .ok (last, membership)
  vote : ∃ vote, s.readVote = .ok vote
  logState : ∃ found, s.logState = .ok found
  entries : ∀ low high, ∃ entries, s.entries low high = .ok entries
  currentSnapshot : ∃ snapshot, s.currentSnapshot = .ok snapshot
  build : ∃ snapshot, s.buildSnapshot.1 = .ok snapshot

/-- A fixed record that was stored is read. -/
theorem exists_readFixed {α : Type} [Fixed α] [LawfulFixed α] {d : Disk} {key : Key}
    (h : ∀ bytes, d.value key = some bytes → ∃ a : α, bytes = Fixed.put a) (subject : Subject) :
    ∃ found : Option α, readFixed d key subject = .ok found := by
  unfold readFixed
  cases hvalue : d.value key with
  | none => exact ⟨none, rfl⟩
  | some bytes =>
      obtain ⟨a, rfl⟩ := h bytes hvalue
      exact ⟨some a, by simp only [Fixed.get?_put]⟩

theorem Sound.answers {s : Storage} (hs : Sound s) : Answers s := by
  obtain ⟨a, ha, -⟩ := hs.inSync
  obtain ⟨listed, hlisted⟩ := exists_listed hs.intact.log
  have hstored : ∀ bytes, s.disk.value .lastPurged = some bytes →
      ∃ id : LogId, bytes = Fixed.put id :=
    fun bytes h => hs.intact.values .lastPurged bytes h
  obtain ⟨purged, hpurged⟩ := exists_readFixed hstored .logs
  exact
    { applied := ⟨a.lastApplied, a.membership, by rw [Storage.applied, ha]; rfl⟩
      vote := exists_readFixed (fun bytes h => hs.intact.values .vote bytes h) .vote
      logState := ⟨_, logState_of_listed hlisted hpurged⟩
      entries := fun low high => ⟨_, entries_of_listed hlisted low high⟩
      currentSnapshot := by
        unfold Storage.currentSnapshot
        cases hvalue : s.disk.value .currentSnapshot with
        | none => exact ⟨none, rfl⟩
        | some bytes =>
            obtain ⟨snapshot, rfl⟩ := hs.intact.values _ _ hvalue
            exact ⟨some snapshot, by simp only [parseBytes_writeBytes]⟩
      build := ⟨_, by rw [buildSnapshot, ha]⟩ }

/-! ## durability -/

/-- **Durability**: whatever was done to a storage before, closing it and opening its disk again
gives a storage with the same state that answers every question the same, builds the same snapshot
next, and is in fact the same storage under the policy with which it is opened.  No question fails.
The state in memory is the one that is stored, or that of a new cluster if none is. -/
theorem reopen_unobservable {s : Storage} (hs : Reachable s) (policy : DecodePolicy) :
    (∃ s', open? s.disk policy = some s' ∧
      s'.state = s.state ∧ s'.applied = s.applied ∧ s'.readVote = s.readVote ∧
      s'.logState = s.logState ∧ (∀ low high, s'.entries low high = s.entries low high) ∧
      s'.currentSnapshot = s.currentSnapshot ∧ s'.buildSnapshot.1 = s.buildSnapshot.1 ∧
      s' = { s with policy }) ∧
    Answers s ∧
    (s.disk.value .applied = none → s.state = State.initial) ∧
    (∀ bytes, s.disk.value .applied = some bytes →
      ∃ a : Applied, parseBytes bytes = .ok a ∧ s.state = a.state) := by
  have hsound : Sound s := hs.sound
  obtain ⟨a, ha, hstate⟩ := hsound.inSync
  refine ⟨⟨{ s with policy }, hsound.open?_eq policy, rfl, rfl, rfl, rfl, fun low high => rfl, rfl,
    ?_, rfl⟩, hsound.answers, fun hnone => ?_, fun bytes hsome => ?_⟩
  · unfold buildSnapshot
    cases loadApplied s.disk <;> rfl
  · rw [loadApplied_of_none hnone, Except.ok.injEq] at ha
    rw [← hstate, ← ha]
    rfl
  · obtain ⟨b, rfl⟩ := hsound.intact.values _ _ hsome
    rw [loadApplied_of_some hsome, Except.ok.injEq] at ha
    exact ⟨b, parseBytes_writeBytes b, by rw [← hstate, ← ha]⟩

/-- A node that stopped inside a batch, built a snapshot, and installed one whose own index is not
that of its position. -/
def haltedNode : Storage :=
  let halted := Operation.run (create .halt)
    (.apply [⟨⟨⟨1, 1⟩, 1⟩, .blank⟩, ⟨⟨⟨1, 1⟩, 2⟩, .normal [255]⟩, ⟨⟨⟨1, 1⟩, 3⟩, .blank⟩])
  Operation.run (Operation.run halted .build)
    (.install ⟨⟨some ⟨⟨2, 1⟩, 9⟩, StoredMembership.initial, "elsewhere"⟩,
      writeBytes (State.mk Table.empty 4)⟩)

theorem reopen_unobservable_haltedNode :
    Reachable haltedNode ∧
      (∃ s', open? haltedNode.disk .skip = some s' ∧ s'.state = haltedNode.state ∧
        s'.buildSnapshot.1 = haltedNode.buildSnapshot.1) ∧ Answers haltedNode := by
  have hnew : Reachable (create .halt) := .start .halt rfl
  have hnode : Reachable haltedNode := ((hnew.run (.apply _)).run .build).run (.install _)
  obtain ⟨⟨s', hopen, hstate, -, -, -, -, -, hbuild, -⟩, hanswers, -⟩ :=
    reopen_unobservable hnode .skip
  exact ⟨hnode, ⟨s', hopen, hstate, hbuild⟩, hanswers⟩

end ControlPlane.Storage
