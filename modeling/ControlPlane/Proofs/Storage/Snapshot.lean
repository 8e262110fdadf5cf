import ControlPlane.Proofs.Storage.Batches
import ControlPlane.Proofs.Storage.Log

/-!
# ControlPlane.Proofs.Storage.Snapshot

Snapshots are read back as they were taken.  The reference is a view of the state that knows neither
memory nor disk: what is applied, and the snapshot that was built or installed last (`StateView`).
Every operation takes a storage that keeps such a view to one that keeps the view behind it
(`Keeps.run`), and reopening changes nothing but the policy; so the view tells what is applied, and
which snapshot is current, whatever was done before (`Keeps.exists_replay`).  A snapshot that cannot
be read changes nothing.
-/

namespace ControlPlane.Storage

open Consensus
open Json (parseBytes writeBytes parseBytes_writeBytes)

/-! ## positions and indices -/

/-- The index in the state is that of the position that is applied. -/
def Applied.Aligned (a : Applied) : Prop :=
  ∀ id, a.lastApplied = some id → a.state.lastAppliedIndex = id.index

theorem Applied.aligned_initial : Applied.initial.Aligned := fun _ h => nomatch h

theorem aligned_reached (e : Entry) (m : StoredMembership) (state : State) :
    (reached e m state).Aligned := by
  intro id h
  cases h
  rfl

theorem aligned_installed (snapshot : Snapshot) (state : State) :
    (installed snapshot state).Aligned := by
  intro id h
  have hlast : snapshot.about.lastLogId = some id := h
  rw [installed, hlast]
  rfl

/-- Each stage of a batch is behind an entry. -/
theorem aligned_of_mem_stages {policy : DecodePolicy} {entries : List Entry} {a b : Applied}
    (h : b ∈ stages policy a entries) : b.Aligned := by
  induction entries generalizing a with
  | nil => cases h
  | cons e rest ih =>
      rw [stages] at h
      split at h
      · cases h
      · rcases List.mem_cons.1 h with rfl | h
        · exact aligned_reached e _ _
        · exact ih h

/-- The bytes of what is applied, with the index of its position. -/
def AlignedAt : Key → Bytes → Prop
  | .applied, bytes => ∃ a : Applied, bytes = writeBytes a ∧ a.Aligned
  | _, _ => True

theorem Operation.puts_alignedAt {s : Storage} {op : Operation} {w : Write}
    (hw : w ∈ op.writes s) : w.Puts AlignedAt := by
  cases op with
  | append entries => cases mayWrite_of_mem hw; trivial
  | truncate from' => cases mayWrite_of_mem hw; trivial
  | purge upTo => cases mayWrite_of_mem hw <;> trivial
  | saveVote v => cases mayWrite_of_mem hw; trivial
  | build => cases mayWrite_of_mem hw <;> trivial
  | apply entries =>
      simp only [writes] at hw
      split at hw
      · cases hw
      · obtain ⟨a, ha, rfl⟩ := List.mem_map.1 hw
        exact ⟨a, rfl, aligned_of_mem_stages ha⟩
  | install snapshot =>
      simp only [writes] at hw
      split at hw
      · cases hw
      · next state _ =>
          cases List.mem_singleton.1 hw
          exact Write.puts_pair.2 ⟨⟨_, rfl, aligned_installed snapshot state⟩, trivial⟩

theorem Reachable.alignedAt {s : Storage} (h : Reachable s) : s.disk.All AlignedAt := by
  induction h with
  | start policy h =>
      rw [(of_open?_eq_some h).1]
      exact Disk.All.empty
  | run h op ih =>
      rw [Operation.run_disk]
      exact ih.writeAll fun w hw => Operation.puts_alignedAt hw
  | reopen h hs ih => rwa [(of_open?_eq_some hs).1]
  | interrupt h op done hs ih =>
      rw [(of_open?_eq_some hs).1]
      exact ih.writeAll fun w hw => Operation.puts_alignedAt (List.mem_of_mem_take hw)

/-- **Whatever was done before**, the stored state has the index of its position. -/
theorem Reachable.aligned {s : Storage} (h : Reachable s) {a : Applied}
    (ha : loadApplied s.disk = .ok a) : a.Aligned := by
  cases hvalue : s.disk.value .applied with
  | none =>
      rw [loadApplied_of_none hvalue, Except.ok.injEq] at ha
      exact ha ▸ Applied.aligned_initial
  | some bytes =>
      obtain ⟨b, rfl, hb⟩ := h.alignedAt _ _ hvalue
      rw [loadApplied_of_some hvalue, Except.ok.injEq] at ha
      exact ha ▸ hb

/-! ## the state and its snapshot as a view -/

/-- The state as it is to be: what is applied, the snapshot that is kept of it, how many snapshots
were built, and what is done with entries that hold no command. -/
structure StateView where
  applied : Applied
  current : Option Snapshot
  built : UInt64
  policy : DecodePolicy

namespace StateView

/-- The view behind an operation.  Bytes that are no state are not installed. -/
def after (v : StateView) : Operation → StateView
  | .append _ => v
  | .truncate _ => v
  | .purge _ => v
  | .saveVote _ => v
  | .apply entries => { v with applied := v.applied.behind v.policy entries }
  | .build =>
    { v with current := some (snapshotOf v.applied (v.built + 1)), built := v.built + 1 }
  | .install snapshot =>
    match parseBytes (α := State) snapshot.data with
    | .error _ => v
    | .ok state => { v with applied := installed snapshot state, current := some snapshot }

/-- The view behind an event. -/
def next (v : StateView) : Event → StateView
  | .run op => v.after op
  | .reopen policy => { v with policy }

end StateView

/-- A storage that has a view in memory and on disk. -/
structure Keeps (s : Storage) (v : StateView) : Prop where
  applied : loadApplied s.disk = .ok v.applied
  state : v.applied.state = s.state
  current : s.currentSnapshot = .ok v.current
  built : v.built = s.snapshots
  policy : v.policy = s.policy

/-! ## snapshots, one at a time -/

theorem currentSnapshot_of_some {s : Storage} {snapshot : Snapshot}
    (h : s.disk.value .currentSnapshot = some (writeBytes snapshot)) :
    s.currentSnapshot = .ok (some snapshot) := by
  simp only [currentSnapshot, h, parseBytes_writeBytes]

/-- The current snapshot depends on nothing else that is stored. -/
theorem currentSnapshot_congr {s s' : Storage}
    (h : s'.disk.value .currentSnapshot = s.disk.value .currentSnapshot) :
    s'.currentSnapshot = s.currentSnapshot := by
  rw [currentSnapshot, currentSnapshot, h]

theorem installSnapshot_of_error {s : Storage} {snapshot : Snapshot} {fault : Json.Fault}
    (h : parseBytes (α := State) snapshot.data = .error fault) :
    s.installSnapshot snapshot = (.error (.unreadable .snapshot), s) := by
  rw [installSnapshot, h]

/-- Puts a snapshot of a state in place of everything applied. -/
def replace (s : Storage) (a : Applied) (snapshot : Snapshot) : Storage :=
  { s with
    disk := s.disk.write
      (.putValues [(.applied, writeBytes a), (.currentSnapshot, writeBytes snapshot)])
    state := a.state }

theorem value_write_pair (d : Disk) (bytes bytes' : Bytes) :
    (d.write (.putValues [(.applied, bytes), (.currentSnapshot, bytes')])).value .applied
        = some bytes ∧
      (d.write (.putValues [(.applied, bytes), (.currentSnapshot, bytes')])).value .currentSnapshot
        = some bytes' :=
  ⟨rfl, rfl⟩

theorem loadApplied_replace (s : Storage) (a : Applied) (snapshot : Snapshot) :
    loadApplied (s.replace a snapshot).disk = .ok a :=
  loadApplied_of_some (value_write_pair s.disk _ _).1

theorem currentSnapshot_replace (s : Storage) (a : Applied) (snapshot : Snapshot) :
    (s.replace a snapshot).currentSnapshot = .ok (some snapshot) :=
  currentSnapshot_of_some (value_write_pair s.disk _ _).2

/-- A snapshot that can be read takes the place of everything applied, in memory and on disk. -/
theorem installSnapshot_of_ok (s : Storage) {snapshot : Snapshot} {state : State}
    (h : parseBytes snapshot.data = .ok state) :
    s.installSnapshot snapshot = (.ok (), s.replace (installed snapshot state) snapshot) := by
  rw [installSnapshot, h]
  rfl

theorem installSnapshot_eq_ok_iff {s : Storage} {snapshot : Snapshot} :
    (s.installSnapshot snapshot).1 = .ok () ↔
      ∃ state : State, parseBytes snapshot.data = .ok state := by
  cases h : parseBytes (α := State) snapshot.data with
  | error fault => simp [installSnapshot_of_error h]
  | ok state => simp [installSnapshot_of_ok s h]

/-- A snapshot is built of what is applied on disk, under the next number. -/
theorem buildSnapshot_of_load {s : Storage} {a : Applied} (h : loadApplied s.disk = .ok a) :
    s.buildSnapshot = (.ok (snapshotOf a (s.snapshots + 1)),
      s.takeNumber.2.putSnapshot (snapshotOf a (s.snapshots + 1))) := by
  rw [buildSnapshot, h]
  rfl

/-- The bytes of a snapshot are the state that it is of. -/
theorem data_snapshotOf (a : Applied) (number : UInt64) :
    (snapshotOf a number).data = writeBytes a.state := by
  rw [snapshotOf]

theorem currentSnapshot_putSnapshot (s : Storage) (snapshot : Snapshot) :
    (s.putSnapshot snapshot).currentSnapshot = .ok (some snapshot) :=
  currentSnapshot_of_some rfl

/-! ## operations and events -/

namespace Keeps

variable {s : Storage} {v : StateView}

theorem store (h : Keeps s v) (a : Applied) : Keeps (s.store a) { v with applied := a } where
  applied := loadApplied_of_some rfl
  state := rfl
  current := (currentSnapshot_congr rfl).trans h.current
  built := h.built
  policy := h.policy

theorem apply (h : Keeps s v) (entries : List Entry) :
    Keeps (s.apply entries).2 { v with applied := v.applied.behind v.policy entries } := by
  rw [apply_eq_applyFrom h.applied, applyFrom_state entries h.state, h.policy]
  by_cases hnone : progress s.policy entries = 0
  · rw [if_pos hnone, Applied.behind_of_progress hnone, ← h.policy]
    exact h
  · rw [if_neg hnone, ← h.policy]
    exact h.store _

theorem takeNumber (h : Keeps s v) : Keeps s.takeNumber.2 { v with built := v.built + 1 } where
  applied := (loadApplied_congr rfl).trans h.applied
  state := h.state
  current := (currentSnapshot_congr rfl).trans h.current
  built := congrArg (· + 1) h.built
  policy := h.policy

theorem putSnapshot (h : Keeps s v) (snapshot : Snapshot) :
    Keeps (s.putSnapshot snapshot) { v with current := some snapshot } where
  applied := (loadApplied_congr rfl).trans h.applied
  state := h.state
  current := currentSnapshot_putSnapshot s snapshot
  built := h.built
  policy := h.policy

theorem build (h : Keeps s v) : Keeps s.buildSnapshot.2
    { v with current := some (snapshotOf v.applied (v.built + 1)), built := v.built + 1 } := by
  rw [buildSnapshot_of_load h.applied, ← h.built]
  exact h.takeNumber.putSnapshot _

theorem install (h : Keeps s v) {snapshot : Snapshot} {state : State}
    (hstate : parseBytes snapshot.data = .ok state) : Keeps (s.installSnapshot snapshot).2
      { v with applied := installed snapshot state, current := some snapshot } := by
  rw [installSnapshot_of_ok s hstate]
  exact
    { applied := loadApplied_replace s _ snapshot
      state := rfl
      current := currentSnapshot_replace s _ snapshot
      built := h.built
      policy := h.policy }

/-- An operation that touches neither the state nor the current snapshot keeps the view. -/
theorem of_touches (h : Keeps s v) {op : Operation} (happlied : Key.applied ∉ op.touches)
    (hcurrent : Key.currentSnapshot ∉ op.touches) (hstate : (op.run s).state = s.state)
    (hpolicy : (op.run s).policy = s.policy) : Keeps (op.run s) v where
  applied := (loadApplied_congr (Operation.value_run happlied s)).trans h.applied
  state := h.state.trans hstate.symm
  current := (currentSnapshot_congr (Operation.value_run hcurrent s)).trans h.current
  built := by
    rw [h.built, snapshots_run fun hbuild => ?_]
    rw [hbuild] at hcurrent
    simp [Operation.touches] at hcurrent
  policy := h.policy.trans hpolicy.symm

/-- **Every operation** leads to the view behind it. -/
theorem run (h : Keeps s v) (op : Operation) : Keeps (op.run s) (v.after op) := by
  cases op with
  | append entries =>
      exact h.of_touches (by simp [Operation.touches]) (by simp [Operation.touches]) rfl rfl
  | truncate from' =>
      exact h.of_touches (by simp [Operation.touches]) (by simp [Operation.touches]) rfl rfl
  | purge upTo =>
      exact h.of_touches (by simp [Operation.touches]) (by simp [Operation.touches]) rfl rfl
  | saveVote vote =>
      exact h.of_touches (by simp [Operation.touches]) (by simp [Operation.touches]) rfl rfl
  | apply entries => exact h.apply entries
  | build => exact h.build
  | install snapshot =>
      cases hstate : parseBytes (α := State) snapshot.data with
      | error fault =>
          rw [StateView.after, hstate, Operation.run, installSnapshot_of_error hstate]
          exact h
      | ok state =>
          rw [StateView.after, hstate]
          exact h.install hstate

/-- An event leads to the view behind it. -/
theorem exists_next (h : Keeps s v) (hs : Reachable s) (event : Event) :
    ∃ s', event.next? s = some s' ∧ Reachable s' ∧ Keeps s' (v.next event) := by
  cases event with
  | run op => exact ⟨op.run s, rfl, hs.run op, h.run op⟩
  | reopen policy =>
      have hopen := hs.sound.open?_eq policy
      exact ⟨{ s with policy }, hopen, hs.reopen hopen, { h with policy := rfl }⟩

end Keeps

/-! ## the snapshots of a run -/

/-- The snapshot that an event takes: the one that is built or installed, unless that fails. -/
def Event.taken? (s : Storage) : Event → Option Snapshot
  | .run .build => s.buildSnapshot.1.toOption
  | .run (.install snapshot) => (s.installSnapshot snapshot).1.toOption.map fun _ => snapshot
  | _ => none

/-- The snapshots that the events of a run take, in order. -/
def snapshotsTaken (s : Storage) : List Event → List Snapshot
  | [] => []
  | event :: rest =>
    (event.taken? s).toList ++
      match event.next? s with
      | none => []
      | some s' => snapshotsTaken s' rest

namespace Keeps

variable {s : Storage} {v : StateView}

/-- The snapshot that an event takes is the current one from there on. -/
theorem current_next (h : Keeps s v) (event : Event) :
    (v.next event).current = (event.taken? s).or v.current := by
  cases event with
  | reopen policy => rfl
  | run op =>
      cases op with
      | append entries => rfl
      | truncate from' => rfl
      | purge upTo => rfl
      | saveVote vote => rfl
      | apply entries => rfl
      | build =>
          rw [Event.taken?, buildSnapshot_of_load h.applied, ← h.built]
          rfl
      | install snapshot =>
          rw [StateView.next, StateView.after, Event.taken?]
          cases hstate : parseBytes (α := State) snapshot.data with
          | error fault =>
              rw [installSnapshot_of_error hstate]
              rfl
          | ok state =>
              rw [installSnapshot_of_ok s hstate]
              rfl

/-- A run leads to the view behind it, in which the snapshot that was taken last is the current
one. -/
theorem exists_replay (h : Keeps s v) (hs : Reachable s) (events : List Event) :
    ∃ s', events.foldlM Event.next? s = some s' ∧ Reachable s' ∧
      Keeps s' (events.foldl StateView.next v) ∧
      (events.foldl StateView.next v).current
        = (snapshotsTaken s events).getLast?.or v.current := by
  induction events generalizing s v with
  | nil => exact ⟨s, rfl, hs, h, rfl⟩
  | cons event rest ih =>
      obtain ⟨s', hnext, hs', h'⟩ := h.exists_next hs event
      obtain ⟨s'', hrest, hs'', h'', hcurrent⟩ := ih h' hs'
      refine ⟨s'', ?_, hs'', h'', ?_⟩
      · rw [List.foldlM_cons, hnext]
        exact hrest
      · rw [List.foldl_cons, hcurrent, h.current_next, snapshotsTaken, hnext,
          List.getLast?_append, Option.or_assoc]
        cases event.taken? s <;> rfl

end Keeps

/-- A storage keeps a view, whatever was done before. -/
theorem Reachable.exists_keeps {s : Storage} (h : Reachable s) :
    ∃ a current, Keeps s ⟨a, current, s.snapshots, s.policy⟩ := by
  obtain ⟨a, hload, hstate⟩ := h.sound.inSync
  obtain ⟨current, hcurrent⟩ := h.sound.answers.currentSnapshot
  exact ⟨a, current, hload, hstate, hcurrent, rfl, rfl⟩

/-- **Snapshots are read back as they were taken**, whatever was done before.  One is installed
exactly if its bytes are a state.  Then its table is in memory and on disk, with the position and
the membership that it is about and the index of the position, or its own index if it is about none;
and it is the current snapshot, to the byte.  Otherwise nothing changes at all.

Behind any run of operations and restarts, the current snapshot is the last one that was built or
installed with success, or the one from before the run.  Let the reference fold be at `v` there: the
disk holds what `v` has applied, and a snapshot that is built now has the bytes of that state, the
position up to which it is applied, which is that of the index in the state, and the membership in
force there. -/
theorem currentSnapshot_eq_last_taken {s : Storage} (hs : Reachable s) :
    (∀ snapshot,
      ((s.installSnapshot snapshot).1 = .ok () ↔
        ∃ state : State, parseBytes snapshot.data = .ok state) ∧
      (∀ state : State, parseBytes snapshot.data = .ok state →
        ∃ s', (s.installSnapshot snapshot).2 = s' ∧
          s'.state = ⟨state.table,
            (snapshot.about.lastLogId.map (·.index)).getD state.lastAppliedIndex⟩ ∧
          loadApplied s'.disk
            = .ok ⟨snapshot.about.lastLogId, snapshot.about.lastMembership, s'.state⟩ ∧
          s'.applied = .ok (snapshot.about.lastLogId, snapshot.about.lastMembership) ∧
          s'.currentSnapshot = .ok (some snapshot)) ∧
      ((s.installSnapshot snapshot).1 ≠ .ok () → (s.installSnapshot snapshot).2 = s)) ∧
    ∃ a current, loadApplied s.disk = .ok a ∧ s.currentSnapshot = .ok current ∧
      ∀ events, ∃ s' v, events.foldlM Event.next? s = some s' ∧
        v = events.foldl StateView.next ⟨a, current, s.snapshots, s.policy⟩ ∧
        s'.currentSnapshot = .ok v.current ∧
        v.current = (snapshotsTaken s events).getLast?.or current ∧
        loadApplied s'.disk = .ok v.applied ∧ s'.state = v.applied.state ∧
        ∃ snapshot, s'.buildSnapshot.1 = .ok snapshot ∧
          s'.buildSnapshot.2.currentSnapshot = .ok (some snapshot) ∧
          snapshot.data = writeBytes v.applied.state ∧
          parseBytes snapshot.data = .ok v.applied.state ∧
          snapshot.about.lastLogId = v.applied.lastApplied ∧
          snapshot.about.lastMembership = v.applied.membership ∧
          ∀ id, snapshot.about.lastLogId = some id →
            v.applied.state.lastAppliedIndex = id.index := by
  constructor
  · intro snapshot
    refine ⟨installSnapshot_eq_ok_iff, fun state hstate => ?_, fun hfail => ?_⟩
    · have hdisk := loadApplied_replace s (installed snapshot state) snapshot
      rw [installSnapshot_of_ok s hstate]
      refine ⟨_, rfl, rfl, hdisk, ?_, currentSnapshot_replace s _ snapshot⟩
      rw [applied, hdisk]
      rfl
    · cases hstate : parseBytes (α := State) snapshot.data with
      | error fault => rw [installSnapshot_of_error hstate]
      | ok state => exact absurd (installSnapshot_eq_ok_iff.2 ⟨state, hstate⟩) hfail
  · obtain ⟨a, current, h⟩ := hs.exists_keeps
    refine ⟨a, current, h.applied, h.current, fun events => ?_⟩
    obtain ⟨s', hreplay, hs', h', hcurrent⟩ := h.exists_replay hs events
    generalize hv : events.foldl StateView.next _ = v at h' hcurrent
    refine ⟨s', v, hreplay, rfl, h'.current, hcurrent, h'.applied, h'.state.symm,
      snapshotOf v.applied (s'.snapshots + 1), ?_, ?_, data_snapshotOf _ _, ?_, rfl, rfl,
      hs'.aligned h'.applied⟩
    · rw [buildSnapshot_of_load h'.applied]
    · rw [buildSnapshot_of_load h'.applied, currentSnapshot_putSnapshot]
    · rw [data_snapshotOf, parseBytes_writeBytes]

/-- A snapshot without bytes. -/
def unreadableSnapshot : Snapshot :=
  ⟨⟨some ⟨⟨2, 1⟩, 9⟩, StoredMembership.initial, "unreadable"⟩, []⟩

/-- A snapshot of a state at an index of its own, about no position. -/
def unplacedSnapshot : Snapshot :=
  ⟨⟨none, StoredMembership.initial, "unplaced"⟩, writeBytes (State.mk Table.empty 4)⟩

/-- A snapshot is built behind two entries; then one cannot be installed, and the node goes on. -/
def snapshotEvents : List Event :=
  [.run (.apply [⟨⟨⟨1, 1⟩, 1⟩, .blank⟩, ⟨⟨⟨1, 1⟩, 2⟩, .membership Membership.empty⟩]),
    .run .build, .run (.install unreadableSnapshot), .reopen .skip,
    .run (.apply [⟨⟨⟨1, 1⟩, 3⟩, .normal [255]⟩])]

theorem exists_fault_unreadableSnapshot :
    ∃ fault, parseBytes (α := State) unreadableSnapshot.data = .error fault := by
  have hnone : (parseBytes (α := State) unreadableSnapshot.data).toOption = none := by
    decide +kernel
  cases h : parseBytes (α := State) unreadableSnapshot.data with
  | error fault => exact ⟨fault, rfl⟩
  | ok state =>
      rw [h] at hnone
      cases hnone

theorem currentSnapshot_eq_last_taken_snapshotEvents :
    Reachable (create .halt) ∧
      ((create .halt).installSnapshot unreadableSnapshot).2 = create .halt ∧
      ((create .halt).installSnapshot unplacedSnapshot).2.state = ⟨Table.empty, 4⟩ ∧
      ∃ s, snapshotEvents.foldlM Event.next? (create .halt) = some s ∧
        (∃ snapshot, s.currentSnapshot = .ok (some snapshot) ∧
          snapshot.about.lastLogId = some ⟨⟨1, 1⟩, 2⟩ ∧
          snapshot.about.lastMembership = ⟨some ⟨⟨1, 1⟩, 2⟩, Membership.empty⟩) ∧
        ∃ snapshot, s.buildSnapshot.1 = .ok snapshot ∧
          snapshot.about.lastLogId = some ⟨⟨1, 1⟩, 3⟩ ∧
          parseBytes snapshot.data = .ok (State.mk Table.empty 3) := by
  have hnew : Reachable (create .halt) := .start .halt rfl
  obtain ⟨hinstall, a, current, hload, hcurrent, hruns⟩ := currentSnapshot_eq_last_taken hnew
  obtain ⟨fault, hfault⟩ := exists_fault_unreadableSnapshot
  have hunreadable : ((create .halt).installSnapshot unreadableSnapshot).1 ≠ .ok () := by
    rw [installSnapshot_of_error hfault]
    simp
  obtain ⟨placed, hplaced, hstate, -⟩ :=
    (hinstall unplacedSnapshot).2.1 _ (parseBytes_writeBytes (State.mk Table.empty 4))
  obtain ⟨s, v, hreplay, hv, hnow, -, -, -, snapshot, hbuild, -, -, hdata, hlast, -⟩ :=
    hruns snapshotEvents
  rw [loadApplied_of_none rfl, Except.ok.injEq] at hload
  have hview : v = ⟨⟨some ⟨⟨1, 1⟩, 3⟩, ⟨some ⟨⟨1, 1⟩, 2⟩, Membership.empty⟩, ⟨Table.empty, 3⟩⟩,
      some (snapshotOf ⟨some ⟨⟨1, 1⟩, 2⟩, ⟨some ⟨⟨1, 1⟩, 2⟩, Membership.empty⟩,
        ⟨Table.empty, 2⟩⟩ 1), 1, .skip⟩ := by
    rw [hv, ← hload]
    simp only [snapshotEvents, List.foldl_cons, List.foldl_nil, StateView.next, StateView.after,
      hfault]
    rfl
  rw [hview] at hnow hdata hlast
  exact ⟨hnew, (hinstall unreadableSnapshot).2.2 hunreadable, by rw [hplaced, hstate]; rfl, s,
    hreplay, ⟨_, hnow, rfl, rfl⟩, snapshot, hbuild, hlast, hdata⟩

end ControlPlane.Storage
