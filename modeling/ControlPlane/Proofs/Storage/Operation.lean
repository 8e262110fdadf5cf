import ControlPlane.Proofs.Consensus.Form
import ControlPlane.Proofs.Storage.Record
import ControlPlane.Storage

/-!
# ControlPlane.Proofs.Storage.Operation

The operations of a storage as the writes that they do.  A node that stops in the middle of an
operation has done the first few of its writes, and one that does not stop has done them all
(`Operation.run_disk`).  Behind every operation the state in memory is the one on disk
(`InSync.run`), and a disk whose values can be read is opened (`exists_open?`), with the state that
it holds (`of_open?_eq_some`).
-/

namespace ControlPlane.Storage

open Consensus
open Json (LawfulForm Reads reads toJson ofJson? parseBytes writeBytes parseBytes_writeBytes)

/-! ## stored values -/

instance : LawfulForm Applied where
  ofJson?_toJson a := by
    show (do
      return Applied.mk (← ofJson? (toJson a.lastApplied)) (← ofJson? (toJson a.membership))
        (← ofJson? (toJson a.state))) = some a
    simp
  reads _ := Reads.record (by decide) (.cons (reads _) (.cons (reads _) (.cons (reads _) .nil)))

namespace Disk

/-- A disk all of whose named values satisfy a condition. -/
def All (P : Key → Bytes → Prop) (d : Disk) : Prop :=
  ∀ key bytes, d.value key = some bytes → P key bytes

end Disk

/-- A write that puts only values that satisfy a condition. -/
def Write.Puts (P : Key → Bytes → Prop) : Write → Prop
  | .putEntry _ _ => True
  | .removeEntry _ => True
  | .putValue key bytes => P key bytes
  | .putValues values => ∀ v ∈ values, P v.1 v.2

theorem Write.puts_pair {P : Key → Bytes → Prop} {k k' : Key} {b b' : Bytes} :
    (Write.putValues [(k, b), (k', b')]).Puts P ↔ P k b ∧ P k' b' := by
  simp [Write.Puts]

namespace Disk.All

variable {P : Key → Bytes → Prop} {d : Disk}

theorem empty : Disk.empty.All P := fun _ _ h => nomatch h

theorem putValue (hd : d.All P) {key : Key} {bytes : Bytes} (h : P key bytes) :
    (d.putValue key bytes).All P := by
  intro k b hb
  simp only [Disk.putValue] at hb
  split at hb
  · next hk =>
      cases hb
      exact hk ▸ h
  · exact hd k b hb

/-- A write that puts only such values keeps the condition. -/
theorem write (hd : d.All P) {w : Write} (hw : w.Puts P) : (d.write w).All P := by
  cases w with
  | putEntry index bytes => exact hd
  | removeEntry index => exact hd
  | putValue key bytes => exact hd.putValue hw
  | putValues values =>
      simp only [Disk.write]
      induction values generalizing d with
      | nil => exact hd
      | cons v rest ih =>
          obtain ⟨hv, hrest⟩ := List.forall_mem_cons.1 hw
          exact ih (hd.putValue hv) hrest

theorem writeAll (hd : d.All P) {writes : List Write} (h : ∀ w ∈ writes, w.Puts P) :
    (d.writeAll writes).All P := by
  simp only [Disk.writeAll]
  induction writes generalizing d with
  | nil => exact hd
  | cons w rest ih =>
      obtain ⟨hw, hrest⟩ := List.forall_mem_cons.1 h
      exact ih (hd.write hw) hrest

end Disk.All

/-! ## what writes leave alone -/

/-- A write that leaves a named value alone. -/
def Write.Spares (key : Key) : Write → Prop
  | .putEntry _ _ => True
  | .removeEntry _ => True
  | .putValue k _ => k ≠ key
  | .putValues values => ∀ v ∈ values, v.1 ≠ key

theorem value_putValue_of_ne {key k : Key} (h : k ≠ key) (d : Disk) (bytes : Bytes) :
    (d.putValue k bytes).value key = d.value key := by
  simp only [Disk.putValue]
  rw [if_neg (Ne.symm h)]

theorem value_write {key : Key} {w : Write} (h : w.Spares key) (d : Disk) :
    (d.write w).value key = d.value key := by
  cases w with
  | putEntry index bytes => rfl
  | removeEntry index => rfl
  | putValue k bytes => exact value_putValue_of_ne h d bytes
  | putValues values =>
      simp only [Disk.write]
      induction values generalizing d with
      | nil => rfl
      | cons v rest ih =>
          obtain ⟨hv, hrest⟩ := List.forall_mem_cons.1 h
          rw [List.foldl_cons, ih _ hrest, value_putValue_of_ne hv]

/-- Writes that leave a named value alone leave it alone together. -/
theorem value_writeAll {key : Key} {writes : List Write} (h : ∀ w ∈ writes, w.Spares key)
    (d : Disk) : (d.writeAll writes).value key = d.value key := by
  simp only [Disk.writeAll]
  induction writes generalizing d with
  | nil => rfl
  | cons w rest ih =>
      obtain ⟨hw, hrest⟩ := List.forall_mem_cons.1 h
      rw [List.foldl_cons, ih hrest, value_write hw]

/-- A write that leaves the log alone. -/
def Write.SparesLog : Write → Prop
  | .putEntry _ _ => False
  | .removeEntry _ => False
  | .putValue _ _ => True
  | .putValues _ => True

theorem log_write {w : Write} (h : w.SparesLog) (d : Disk) : (d.write w).log = d.log := by
  cases w with
  | putEntry index bytes => exact h.elim
  | removeEntry index => exact h.elim
  | putValue k bytes => rfl
  | putValues values =>
      simp only [Disk.write]
      induction values generalizing d with
      | nil => rfl
      | cons v rest ih =>
          rw [List.foldl_cons, ih _ trivial]
          rfl

/-- Writes that leave the log alone leave it alone together. -/
theorem log_writeAll {writes : List Write} (h : ∀ w ∈ writes, w.SparesLog) (d : Disk) :
    (d.writeAll writes).log = d.log := by
  simp only [Disk.writeAll]
  induction writes generalizing d with
  | nil => rfl
  | cons w rest ih =>
      obtain ⟨hw, hrest⟩ := List.forall_mem_cons.1 h
      rw [List.foldl_cons, ih hrest, log_write hw]

/-! ## the applied part on disk -/

theorem loadApplied_of_none {d : Disk} (h : d.value .applied = none) :
    loadApplied d = .ok Applied.initial := by
  rw [loadApplied, h]

theorem loadApplied_of_some {d : Disk} {a : Applied} (h : d.value .applied = some (writeBytes a)) :
    loadApplied d = .ok a := by
  simp only [loadApplied, h, parseBytes_writeBytes]

/-- What is applied depends on nothing else that is stored. -/
theorem loadApplied_congr {d d' : Disk} (h : d'.value .applied = d.value .applied) :
    loadApplied d' = loadApplied d := by
  rw [loadApplied, loadApplied, h]

/-- The state in memory is the one on disk. -/
def InSync (s : Storage) : Prop := ∃ a, loadApplied s.disk = .ok a ∧ a.state = s.state

/-- Stores what is applied behind an entry, and keeps the state in memory. -/
def store (s : Storage) (a : Applied) : Storage :=
  { s with disk := s.disk.write (.putValue .applied (writeBytes a)), state := a.state }

theorem inSync_store (s : Storage) (a : Applied) : (s.store a).InSync :=
  ⟨a, loadApplied_of_some rfl, rfl⟩

/-! ## applying entries -/

/-- What is applied behind an entry that has this effect on the state. -/
def reached (e : Entry) (m : StoredMembership) (state : State) : Applied :=
  ⟨some e.logId, nextMembership m e, { state with lastAppliedIndex := e.logId.index }⟩

/-- What is applied behind each entry of a list, up to the one that stops it. -/
def stages (policy : DecodePolicy) (a : Applied) : List Entry → List Applied
  | [] => []
  | e :: rest =>
    match applyPayload policy a.state e with
    | .error _ => []
    | .ok (_, state) =>
      reached e a.membership state :: stages policy (reached e a.membership state) rest

theorem applyEntry_of_error {s : Storage} {m : StoredMembership} {e : Entry} {error : Error}
    (h : applyPayload s.policy s.state e = .error error) : s.applyEntry m e = .error error := by
  rw [applyEntry, h]
  rfl

theorem applyEntry_of_ok {s : Storage} {m : StoredMembership} {e : Entry} {outcome : Outcome}
    {state : State} (h : applyPayload s.policy s.state e = .ok (outcome, state)) :
    s.applyEntry m e = .ok (outcome, s.store (reached e m state), nextMembership m e) := by
  rw [applyEntry, h]
  rfl

/-- Applying entries stores the stages one after the other. -/
theorem applyFrom_eq_foldl (entries : List Entry) {s : Storage} {a : Applied}
    (h : a.state = s.state) :
    (s.applyFrom a.membership entries).2 = (stages s.policy a entries).foldl store s := by
  induction entries generalizing s a with
  | nil => rfl
  | cons e rest ih =>
      rw [applyFrom, stages, h]
      cases hpayload : applyPayload s.policy s.state e with
      | error error => rw [applyEntry_of_error hpayload]; rfl
      | ok result =>
          obtain ⟨outcome, state⟩ := result
          rw [applyEntry_of_ok hpayload]
          exact ih (s := s.store (reached e a.membership state))
            (a := reached e a.membership state) rfl

theorem disk_foldl_store (l : List Applied) (s : Storage) :
    (l.foldl store s).disk
      = s.disk.writeAll (l.map fun a => .putValue .applied (writeBytes a)) := by
  induction l generalizing s with
  | nil => rfl
  | cons a rest ih => exact ih (s.store a)

theorem snapshots_foldl_store (l : List Applied) (s : Storage) :
    (l.foldl store s).snapshots = s.snapshots := by
  induction l generalizing s with
  | nil => rfl
  | cons a rest ih => exact ih (s.store a)

theorem inSync_foldl_store (l : List Applied) {s : Storage} (h : s.InSync) :
    (l.foldl store s).InSync := by
  induction l generalizing s with
  | nil => exact h
  | cons a rest ih => exact ih (inSync_store s a)

/-! ## operations -/

/-- What is asked of a storage, besides questions. -/
inductive Operation
  | append (entries : List Entry)
  | truncate (from' : UInt64)
  | purge (upTo : LogId)
  | saveVote (v : Vote)
  | apply (entries : List Entry)
  | build
  | install (snapshot : Snapshot)

/-- What is applied behind the installation of a snapshot of a state. -/
def installed (snapshot : Snapshot) (state : State) : Applied :=
  ⟨snapshot.about.lastLogId, snapshot.about.lastMembership,
    { state with lastAppliedIndex :=
        (snapshot.about.lastLogId.map (·.index)).getD state.lastAppliedIndex }⟩

namespace Operation

/-- The storage behind an operation, whether it succeeds or not. -/
def run (s : Storage) : Operation → Storage
  | .append entries => s.append entries
  | .truncate from' => s.truncate from'
  | .purge upTo => s.purge upTo
  | .saveVote v => s.saveVote v
  | .apply entries => (s.apply entries).2
  | .build => s.buildSnapshot.2
  | .install snapshot => (s.installSnapshot snapshot).2

/-- The writes of an operation, in order. -/
def writes (s : Storage) : Operation → List Write
  | .append entries => appendWrites entries
  | .truncate from' => truncateWrites s.disk from'
  | .purge upTo => purgeWrites s.disk upTo
  | .saveVote v => [.putValue .vote (Fixed.put v)]
  | .apply entries =>
    match loadApplied s.disk with
    | .error _ => []
    | .ok a =>
      (stages s.policy { a with state := s.state } entries).map fun a =>
        .putValue .applied (writeBytes a)
  | .build =>
    match loadApplied s.disk with
    | .error _ => []
    | .ok a =>
      [.putValue .snapshotIndex (Fixed.put (s.snapshots + 1)),
        .putValue .currentSnapshot (writeBytes (snapshotOf a (s.snapshots + 1)))]
  | .install snapshot =>
    match parseBytes (α := State) snapshot.data with
    | .error _ => []
    | .ok state =>
      [.putValues [(.applied, writeBytes (installed snapshot state)),
        (.currentSnapshot, writeBytes snapshot)]]

/-- **An operation is its writes**: the disk behind it is the disk before it with all of them
done. -/
theorem run_disk (s : Storage) (op : Operation) :
    (op.run s).disk = s.disk.writeAll (op.writes s) := by
  cases op with
  | append entries => rfl
  | truncate from' => rfl
  | purge upTo => rfl
  | saveVote v => rfl
  | apply entries =>
      simp only [run, writes, Storage.apply]
      cases loadApplied s.disk with
      | error error => rfl
      | ok a =>
          show (s.applyFrom a.membership entries).2.disk = _
          rw [applyFrom_eq_foldl entries (a := { a with state := s.state }) rfl, disk_foldl_store]
  | build =>
      simp only [run, writes, buildSnapshot]
      cases loadApplied s.disk <;> rfl
  | install snapshot =>
      simp only [run, writes, installSnapshot]
      cases parseBytes (α := State) snapshot.data <;> rfl

/-- The kinds of writes that an operation is made of. -/
inductive MayWrite : Operation → Write → Prop
  | append {entries : List Entry} (e : Entry) :
    MayWrite (.append entries) (.putEntry e.logId.index (writeBytes e))
  | truncate {from' : UInt64} (index : UInt64) : MayWrite (.truncate from') (.removeEntry index)
  | note {upTo : LogId} : MayWrite (.purge upTo) (.putValue .lastPurged (Fixed.put upTo))
  | purge {upTo : LogId} (index : UInt64) : MayWrite (.purge upTo) (.removeEntry index)
  | saveVote {v : Vote} : MayWrite (.saveVote v) (.putValue .vote (Fixed.put v))
  | apply {entries : List Entry} (a : Applied) :
    MayWrite (.apply entries) (.putValue .applied (writeBytes a))
  | number (n : UInt64) : MayWrite .build (.putValue .snapshotIndex (Fixed.put n))
  | build (snapshot : Snapshot) : MayWrite .build (.putValue .currentSnapshot (writeBytes snapshot))
  | install {snapshot : Snapshot} (a : Applied) :
    MayWrite (.install snapshot)
      (.putValues [(.applied, writeBytes a), (.currentSnapshot, writeBytes snapshot)])

theorem mayWrite_of_mem {s : Storage} {op : Operation} {w : Write} (hw : w ∈ op.writes s) :
    op.MayWrite w := by
  cases op with
  | append entries =>
      obtain ⟨e, -, rfl⟩ := List.mem_map.1 hw
      exact .append e
  | truncate from' =>
      obtain ⟨index, -, rfl⟩ := List.mem_map.1 hw
      exact .truncate index
  | purge upTo =>
      rcases List.mem_cons.1 hw with rfl | hw
      · exact .note
      · obtain ⟨index, -, rfl⟩ := List.mem_map.1 hw
        exact .purge index
  | saveVote v =>
      cases List.mem_singleton.1 hw
      exact .saveVote
  | apply entries =>
      simp only [writes] at hw
      split at hw
      · cases hw
      · obtain ⟨a, -, rfl⟩ := List.mem_map.1 hw
        exact .apply a
  | build =>
      simp only [writes] at hw
      split at hw
      · cases hw
      · rcases List.mem_cons.1 hw with rfl | hw
        · exact .number _
        · cases List.mem_singleton.1 hw
          exact .build _
  | install snapshot =>
      simp only [writes] at hw
      split at hw
      · cases hw
      · cases List.mem_singleton.1 hw
        exact .install _

/-- The named values that an operation may set. -/
def touches : Operation → List Key
  | .append _ => []
  | .truncate _ => []
  | .purge _ => [.lastPurged]
  | .saveVote _ => [.vote]
  | .apply _ => [.applied]
  | .build => [.snapshotIndex, .currentSnapshot]
  | .install _ => [.applied, .currentSnapshot]

/-- An operation leaves the other named values as they are. -/
theorem value_run {key : Key} {op : Operation} (h : key ∉ op.touches) (s : Storage) :
    (op.run s).disk.value key = s.disk.value key := by
  rw [run_disk]
  refine value_writeAll (fun w hw => ?_) s.disk
  cases mayWrite_of_mem hw <;> simp_all [touches, Write.Spares, eq_comm]

/-- The operations on the log. -/
def OnLog : Operation → Prop
  | .append _ => True
  | .truncate _ => True
  | .purge _ => True
  | .saveVote _ => False
  | .apply _ => False
  | .build => False
  | .install _ => False

/-- The other operations leave the log as it is. -/
theorem log_run {op : Operation} (h : ¬ op.OnLog) (s : Storage) :
    (op.run s).disk.log = s.disk.log := by
  rw [run_disk]
  refine log_writeAll (fun w hw => ?_) s.disk
  cases mayWrite_of_mem hw with
  | append e => exact h trivial
  | truncate index => exact h trivial
  | note => trivial
  | purge index => exact h trivial
  | saveVote => trivial
  | apply a => trivial
  | number n => trivial
  | build snapshot => trivial
  | install a => trivial

end Operation

/-- Behind writes that leave what is applied alone, memory and disk still agree. -/
theorem InSync.of_value {s s' : Storage} (h : s.InSync)
    (hvalue : s'.disk.value .applied = s.disk.value .applied) (hstate : s'.state = s.state) :
    s'.InSync := by
  obtain ⟨a, ha, heq⟩ := h
  exact ⟨a, (loadApplied_congr hvalue).trans ha, heq.trans hstate.symm⟩

/-- **Every operation** leaves the state in memory and the one on disk the same. -/
theorem InSync.run {s : Storage} (h : s.InSync) (op : Operation) : (op.run s).InSync := by
  cases op with
  | append entries => exact h.of_value (Operation.value_run (by simp [Operation.touches]) s) rfl
  | truncate from' => exact h.of_value (Operation.value_run (by simp [Operation.touches]) s) rfl
  | purge upTo => exact h.of_value (Operation.value_run (by simp [Operation.touches]) s) rfl
  | saveVote v => exact h.of_value (Operation.value_run (by simp [Operation.touches]) s) rfl
  | apply entries =>
      simp only [Operation.run, Storage.apply]
      cases loadApplied s.disk with
      | error error => exact h
      | ok a =>
          show (s.applyFrom a.membership entries).2.InSync
          rw [applyFrom_eq_foldl entries (a := { a with state := s.state }) rfl]
          exact inSync_foldl_store _ h
  | build =>
      simp only [Operation.run, buildSnapshot]
      cases loadApplied s.disk with
      | error error => exact h
      | ok a => exact h.of_value rfl rfl
  | install snapshot =>
      simp only [Operation.run, installSnapshot]
      cases parseBytes (α := State) snapshot.data with
      | error error => exact h
      | ok state => exact ⟨installed snapshot state, loadApplied_of_some rfl, rfl⟩

/-! ## opening -/

/-- A value that is read when a disk is opened, and can be. -/
def Readable : Key → Bytes → Prop
  | .applied, bytes => ∃ a : Applied, bytes = writeBytes a
  | .snapshotIndex, bytes => ∃ n : UInt64, bytes = Fixed.put n
  | _, _ => True

/-- A disk that is opened is left as it is, and its state is the one in memory. -/
theorem of_open?_eq_some {d : Disk} {policy : DecodePolicy} {s : Storage}
    (h : open? d policy = some s) : s.disk = d ∧ s.InSync := by
  simp only [open?] at h
  split at h
  all_goals
    obtain ⟨n, -, h⟩ := Option.bind_eq_some_iff.1 h
    split at h
    · next hnone =>
        cases h
        exact ⟨rfl, Applied.initial, loadApplied_of_none hnone, rfl⟩
    · next bytes hsome =>
        obtain ⟨state, hstate, h⟩ := Option.bind_eq_some_iff.1 h
        cases h
        obtain ⟨a, ha, rfl⟩ := Option.map_eq_some_iff.1 hstate
        refine ⟨rfl, a, ?_, rfl⟩
        cases hread : parseBytes (α := Applied) bytes with
        | error fault => simp [hread, Except.toOption] at ha
        | ok b =>
            simp only [hread, Except.toOption, Option.some.injEq] at ha
            simp only [loadApplied, hsome, hread, ha]

/-- How many snapshots a disk has seen. -/
def Numbered (d : Disk) (n : UInt64) : Prop :=
  (d.value .snapshotIndex = none ∧ n = 0) ∨ d.value .snapshotIndex = some (Fixed.put n)

/-- A disk whose values can be read is opened, with the number and the state that it holds. -/
theorem open?_eq_of_readable {d : Disk} (hd : d.All Readable) :
    ∃ a n, loadApplied d = .ok a ∧ Numbered d n ∧
      ∀ policy, open? d policy = some ⟨d, a.state, n, policy⟩ := by
  have hload : ∃ a, loadApplied d = .ok a ∧
      ((d.value .applied = none ∧ a.state = State.initial) ∨
        d.value .applied = some (writeBytes a)) := by
    cases happlied : d.value .applied with
    | none => exact ⟨Applied.initial, loadApplied_of_none happlied, .inl ⟨rfl, rfl⟩⟩
    | some bytes =>
        obtain ⟨a, rfl⟩ := hd _ _ happlied
        exact ⟨a, loadApplied_of_some happlied, .inr rfl⟩
  have hnumber : ∃ n, Numbered d n := by
    cases hindex : d.value .snapshotIndex with
    | none => exact ⟨0, .inl ⟨hindex, rfl⟩⟩
    | some bytes =>
        obtain ⟨n, rfl⟩ := hd _ _ hindex
        exact ⟨n, .inr hindex⟩
  obtain ⟨a, ha, happlied⟩ := hload
  obtain ⟨n, hn⟩ := hnumber
  refine ⟨a, n, ha, hn, fun policy => ?_⟩
  rcases hn with ⟨hindex, rfl⟩ | hindex <;> rcases happlied with ⟨hvalue, hstate⟩ | hvalue
  · simp only [open?, hindex, hvalue, hstate]
    rfl
  · simp only [open?, hindex, hvalue, parseBytes_writeBytes]
    rfl
  · simp only [open?, hindex, hvalue, hstate, Fixed.get?_put]
    rfl
  · simp only [open?, hindex, hvalue, Fixed.get?_put, parseBytes_writeBytes]
    rfl

/-- A disk whose values can be read is opened. -/
theorem exists_open? {d : Disk} (hd : d.All Readable) (policy : DecodePolicy) :
    ∃ s, open? d policy = some s := by
  obtain ⟨a, n, -, -, hopen⟩ := open?_eq_of_readable hd
  exact ⟨_, hopen policy⟩

end ControlPlane.Storage
