import ControlPlane.Proofs.Storage.Snapshot
import Mathlib.Data.Sum.Basic

/-!
# ControlPlane.Proofs.Storage.Sides

A storage has two sides: the log, with the vote and the position purged last; and the state that the
applied part of the log amounts to, with its snapshots.  They share one disk, and their calls come
from separate handles in any order.  Still neither sees the other.  A call leaves the other side as
it is (`LogCall.sameState_next`, `StateCall.sameLog_next`), and what it answers and leaves depends
on its own side alone (`SameLog.answer`, `SameState.answer`).  Hence it cannot be told how the calls
of the two sides were interleaved (`interleaving_unobservable`).
-/

namespace ControlPlane.Storage

open Consensus
open Json (parseBytes writeBytes)

/-! ## what the two sides share -/

/-- The named values of the log side. -/
def Key.OfLog : Key → Prop
  | .vote => True
  | .lastPurged => True
  | .applied => False
  | .snapshotIndex => False
  | .currentSnapshot => False

/-- Two storages with the same log side. -/
structure SameLog (s t : Storage) : Prop where
  log : s.disk.log = t.disk.log
  value : ∀ key : Key, key.OfLog → s.disk.value key = t.disk.value key

/-- Two storages with the same state side, in memory and on disk. -/
structure SameState (s t : Storage) : Prop where
  value : ∀ key : Key, ¬ key.OfLog → s.disk.value key = t.disk.value key
  state : s.state = t.state
  snapshots : s.snapshots = t.snapshots
  policy : s.policy = t.policy

theorem SameLog.refl (s : Storage) : SameLog s s := ⟨rfl, fun _ _ => rfl⟩

theorem SameLog.trans {s t u : Storage} (h : SameLog s t) (h' : SameLog t u) : SameLog s u where
  log := h.log.trans h'.log
  value key hkey := (h.value key hkey).trans (h'.value key hkey)

theorem SameLog.symm {s t : Storage} (h : SameLog s t) : SameLog t s where
  log := h.log.symm
  value key hkey := (h.value key hkey).symm

theorem SameState.refl (s : Storage) : SameState s s := ⟨fun _ _ => rfl, rfl, rfl, rfl⟩

theorem SameState.trans {s t u : Storage} (h : SameState s t) (h' : SameState t u) :
    SameState s u where
  value key hkey := (h.value key hkey).trans (h'.value key hkey)
  state := h.state.trans h'.state
  snapshots := h.snapshots.trans h'.snapshots
  policy := h.policy.trans h'.policy

theorem SameState.symm {s t : Storage} (h : SameState s t) : SameState t s where
  value key hkey := (h.value key hkey).symm
  state := h.state.symm
  snapshots := h.snapshots.symm
  policy := h.policy.symm

/-- There is nothing but the two sides. -/
theorem SameLog.eq_of_sameState {s t : Storage} (h : SameLog s t) (h' : SameState s t) :
    s = t := by
  have hvalue : s.disk.value = t.disk.value := by
    funext key
    by_cases hkey : key.OfLog
    · exact h.value key hkey
    · exact h'.value key hkey
  obtain ⟨⟨log, value⟩, state, snapshots, policy⟩ := s
  obtain ⟨⟨log', value'⟩, state', snapshots', policy'⟩ := t
  obtain ⟨rfl, -⟩ := h
  obtain ⟨-, rfl, rfl, rfl⟩ := h'
  cases hvalue
  rfl

/-! ## one write on two disks -/

/-- A write leaves a named value the same on disks on which it was the same. -/
theorem value_write_congr {d e : Disk} {key : Key} (h : d.value key = e.value key) (w : Write) :
    (d.write w).value key = (e.write w).value key := by
  have hput {d e : Disk} (h : d.value key = e.value key) (k : Key) (bytes : Bytes) :
      (d.putValue k bytes).value key = (e.putValue k bytes).value key := by
    simp only [Disk.putValue, h]
  cases w with
  | putEntry index bytes => exact h
  | removeEntry index => exact h
  | putValue k bytes => exact hput h k bytes
  | putValues values =>
      simp only [Disk.write]
      induction values generalizing d e with
      | nil => exact h
      | cons v rest ih => exact ih (hput h v.1 v.2)

theorem log_write_congr {d e : Disk} (h : d.log = e.log) (w : Write) :
    (d.write w).log = (e.write w).log := by
  cases w with
  | putEntry index bytes => simp only [Disk.write, h]
  | removeEntry index => simp only [Disk.write, h]
  | putValue k bytes => exact h
  | putValues values => rwa [log_write (by trivial), log_write (by trivial)]

theorem value_writeAll_congr {d e : Disk} {key : Key} (h : d.value key = e.value key)
    (writes : List Write) : (d.writeAll writes).value key = (e.writeAll writes).value key := by
  induction writes generalizing d e with
  | nil => exact h
  | cons w rest ih => exact ih (value_write_congr h w)

theorem log_writeAll_congr {d e : Disk} (h : d.log = e.log) (writes : List Write) :
    (d.writeAll writes).log = (e.writeAll writes).log := by
  induction writes generalizing d e with
  | nil => exact h
  | cons w rest ih => exact ih (log_write_congr h w)

/-! ## the calls of the log side -/

/-- What the log side is asked. -/
inductive LogCall
  | append (entries : List Entry)
  | truncate (from' : UInt64)
  | purge (upTo : LogId)
  | saveVote (v : Vote)
  | readVote
  | logState
  | entries (low high : Bound)

/-- What the log side answers. -/
inductive LogAnswer
  | done
  | vote (found : Except Error (Option Vote))
  | logState (found : Except Error LogState)
  | entries (found : Except Error (List Entry))

namespace LogCall

/-- The answer to a call. -/
def answer (s : Storage) : LogCall → LogAnswer
  | .append _ => .done
  | .truncate _ => .done
  | .purge _ => .done
  | .saveVote _ => .done
  | .readVote => .vote s.readVote
  | .logState => .logState s.logState
  | .entries low high => .entries (s.entries low high)

/-- The storage behind a call. -/
def next (s : Storage) : LogCall → Storage
  | .append es => s.append es
  | .truncate from' => s.truncate from'
  | .purge upTo => s.purge upTo
  | .saveVote v => s.saveVote v
  | .readVote => s
  | .logState => s
  | .entries _ _ => s

/-- The answers to calls that are made in order. -/
def answers (s : Storage) : List LogCall → List LogAnswer
  | [] => []
  | c :: rest => c.answer s :: answers (c.next s) rest

end LogCall

/-- An operation that touches no value of the state side leaves the state on disk. -/
theorem SameState.of_touches {s : Storage} (op : Operation) (h : ∀ key ∈ op.touches, key.OfLog)
    (hmemory : (op.run s).state = s.state ∧ (op.run s).snapshots = s.snapshots
      ∧ (op.run s).policy = s.policy) :
    SameState s (op.run s) where
  value key hkey := (Operation.value_run (fun hmem => hkey (h key hmem)) s).symm
  state := hmemory.1.symm
  snapshots := hmemory.2.1.symm
  policy := hmemory.2.2.symm

/-- **A call of the log side** leaves the state side as it is. -/
theorem LogCall.sameState_next (s : Storage) (c : LogCall) : SameState s (c.next s) := by
  cases c with
  | append entries =>
      exact .of_touches (.append entries) (by simp [Operation.touches]) ⟨rfl, rfl, rfl⟩
  | truncate from' =>
      exact .of_touches (.truncate from') (by simp [Operation.touches]) ⟨rfl, rfl, rfl⟩
  | purge upTo =>
      exact .of_touches (.purge upTo) (by simp [Operation.touches, Key.OfLog]) ⟨rfl, rfl, rfl⟩
  | saveVote v =>
      exact .of_touches (.saveVote v) (by simp [Operation.touches, Key.OfLog]) ⟨rfl, rfl, rfl⟩
  | readVote => exact .refl s
  | logState => exact .refl s
  | entries low high => exact .refl s

theorem LogCall.sameState_foldl (s : Storage) (calls : List LogCall) :
    SameState s (calls.foldl LogCall.next s) := by
  induction calls generalizing s with
  | nil => exact .refl s
  | cons c rest ih => exact (c.sameState_next s).trans (ih (c.next s))

namespace SameLog

variable {s t : Storage}

theorem readVote_eq (h : SameLog s t) : s.readVote = t.readVote := by
  rw [readVote, readVote, readFixed, readFixed, h.value .vote trivial]

theorem logState_eq (h : SameLog s t) : s.logState = t.logState := by
  rw [logState, logState, readFixed, readFixed, h.value .lastPurged trivial, h.log]

theorem entries_eq (h : SameLog s t) (low high : Bound) :
    s.entries low high = t.entries low high := by
  rw [entries, entries, h.log]

/-- What the log side is asked, it answers from the log side. -/
theorem answer (h : SameLog s t) (c : LogCall) : c.answer s = c.answer t := by
  cases c with
  | append entries => rfl
  | truncate from' => rfl
  | purge upTo => rfl
  | saveVote v => rfl
  | readVote => exact congrArg LogAnswer.vote h.readVote_eq
  | logState => exact congrArg LogAnswer.logState h.logState_eq
  | entries low high => exact congrArg LogAnswer.entries (h.entries_eq low high)

theorem writeAll (h : SameLog s t) (writes : List Write) :
    SameLog (s.writeAll writes) (t.writeAll writes) where
  log := log_writeAll_congr h.log writes
  value key hkey := value_writeAll_congr (h.value key hkey) writes

/-- What it is told to do, it does to the log side as it finds it. -/
theorem next (h : SameLog s t) (c : LogCall) : SameLog (c.next s) (c.next t) := by
  cases c with
  | append entries => exact h.writeAll (appendWrites entries)
  | truncate from' =>
      have hwrites : truncateWrites s.disk from' = truncateWrites t.disk from' := by
        rw [truncateWrites, truncateWrites, h.log]
      simp only [LogCall.next, truncate, hwrites]
      exact h.writeAll _
  | purge upTo =>
      have hwrites : purgeWrites s.disk upTo = purgeWrites t.disk upTo := by
        rw [purgeWrites, purgeWrites, h.log]
      simp only [LogCall.next, purge, hwrites]
      exact h.writeAll _
  | saveVote v => exact h.writeAll [.putValue .vote (Fixed.put v)]
  | readVote => exact h
  | logState => exact h
  | entries low high => exact h

end SameLog

/-! ## the calls of the state side -/

/-- What the state side is asked. -/
inductive StateCall
  | apply (entries : List Entry)
  | build
  | install (snapshot : Snapshot)
  | applied
  | currentSnapshot
  /-- The state in memory, from which every query is answered. -/
  | state

/-- What the state side answers. -/
inductive StateAnswer
  | outcomes (result : Except Error (List Outcome))
  | built (result : Except Error Snapshot)
  | installed (result : Except Error Unit)
  | applied (found : Except Error (Option LogId × StoredMembership))
  | currentSnapshot (found : Except Error (Option Snapshot))
  | state (found : State)

namespace StateCall

/-- The answer to a call. -/
def answer (s : Storage) : StateCall → StateAnswer
  | .apply entries => .outcomes (s.apply entries).1
  | .build => .built s.buildSnapshot.1
  | .install snapshot => .installed (s.installSnapshot snapshot).1
  | .applied => .applied s.applied
  | .currentSnapshot => .currentSnapshot s.currentSnapshot
  | .state => .state s.state

/-- The storage behind a call, whether it succeeds or not. -/
def next (s : Storage) : StateCall → Storage
  | .apply entries => (s.apply entries).2
  | .build => s.buildSnapshot.2
  | .install snapshot => (s.installSnapshot snapshot).2
  | .applied => s
  | .currentSnapshot => s
  | .state => s

/-- The answers to calls that are made in order. -/
def answers (s : Storage) : List StateCall → List StateAnswer
  | [] => []
  | c :: rest => c.answer s :: answers (c.next s) rest

end StateCall

/-- An operation that touches no value of the log side, nor the log, leaves that side. -/
theorem SameLog.of_touches {s : Storage} (op : Operation) (hlog : ¬ op.OnLog)
    (h : ∀ key ∈ op.touches, ¬ key.OfLog) : SameLog s (op.run s) where
  log := (Operation.log_run hlog s).symm
  value key hkey := (Operation.value_run (fun hmem => h key hmem hkey) s).symm

/-- **A call of the state side** leaves the log side as it is. -/
theorem StateCall.sameLog_next (s : Storage) (c : StateCall) : SameLog s (c.next s) := by
  cases c with
  | apply entries =>
      exact .of_touches (.apply entries) id (by simp [Operation.touches, Key.OfLog])
  | build => exact .of_touches .build id (by simp [Operation.touches, Key.OfLog])
  | install snapshot =>
      exact .of_touches (.install snapshot) id (by simp [Operation.touches, Key.OfLog])
  | applied => exact .refl s
  | currentSnapshot => exact .refl s
  | state => exact .refl s

theorem StateCall.sameLog_foldl (s : Storage) (calls : List StateCall) :
    SameLog s (calls.foldl StateCall.next s) := by
  induction calls generalizing s with
  | nil => exact .refl s
  | cons c rest ih => exact (c.sameLog_next s).trans (ih (c.next s))

namespace SameState

variable {s t : Storage} (h : SameState s t)
include h

theorem loadApplied_eq : loadApplied s.disk = loadApplied t.disk :=
  loadApplied_congr (h.value .applied id)

theorem currentSnapshot_eq : s.currentSnapshot = t.currentSnapshot :=
  currentSnapshot_congr (h.value .currentSnapshot id)

theorem applied_eq : s.applied = t.applied := by
  rw [applied, applied, h.loadApplied_eq]

theorem store (a : Applied) : SameState (s.store a) (t.store a) :=
  { h with
    value := fun key hkey =>
      value_write_congr (h.value key hkey) (.putValue .applied (writeBytes a))
    state := rfl }

theorem replace (a : Applied) (snapshot : Snapshot) :
    SameState (s.replace a snapshot) (t.replace a snapshot) :=
  { h with
    value := fun key hkey =>
      value_write_congr (h.value key hkey)
        (.putValues [(.applied, writeBytes a), (.currentSnapshot, writeBytes snapshot)])
    state := rfl }

theorem putSnapshot (snapshot : Snapshot) :
    SameState (s.putSnapshot snapshot) (t.putSnapshot snapshot) :=
  { h with value := fun key hkey => value_writeAll_congr (h.value key hkey) _ }

theorem takeNumber : SameState s.takeNumber.2 t.takeNumber.2 where
  value key hkey := by
    simp only [Storage.takeNumber, h.snapshots]
    exact value_write_congr (h.value key hkey) _
  state := h.state
  snapshots := by simp only [Storage.takeNumber, h.snapshots]
  policy := h.policy

/-- Entries have the same outcomes, and lead to the same state. -/
theorem applyFrom (m : StoredMembership) (entries : List Entry) :
    (s.applyFrom m entries).1 = (t.applyFrom m entries).1 ∧
      SameState (s.applyFrom m entries).2 (t.applyFrom m entries).2 := by
  induction entries generalizing s t m with
  | nil => exact ⟨rfl, h⟩
  | cons e rest ih =>
      rw [Storage.applyFrom, Storage.applyFrom]
      cases hs : applyPayload s.policy s.state e with
      | error error =>
          have ht : applyPayload t.policy t.state e = .error error := by
            rw [← h.policy, ← h.state, hs]
          rw [applyEntry_of_error hs, applyEntry_of_error ht]
          exact ⟨rfl, h⟩
      | ok result =>
          obtain ⟨outcome, state⟩ := result
          have ht : applyPayload t.policy t.state e = .ok (outcome, state) := by
            rw [← h.policy, ← h.state, hs]
          obtain ⟨houtcomes, hrest⟩ := ih (h.store (reached e m state)) (nextMembership m e)
          rw [applyEntry_of_ok hs, applyEntry_of_ok ht]
          exact ⟨congrArg (Except.map (outcome :: ·)) houtcomes, hrest⟩

theorem apply (entries : List Entry) :
    (s.apply entries).1 = (t.apply entries).1 ∧
      SameState (s.apply entries).2 (t.apply entries).2 := by
  rw [Storage.apply, Storage.apply, h.loadApplied_eq]
  cases loadApplied t.disk with
  | error error => exact ⟨rfl, h⟩
  | ok a => exact h.applyFrom a.membership entries

theorem build :
    s.buildSnapshot.1 = t.buildSnapshot.1 ∧ SameState s.buildSnapshot.2 t.buildSnapshot.2 := by
  cases hload : loadApplied t.disk with
  | error error =>
      rw [buildSnapshot, buildSnapshot, h.loadApplied_eq, hload]
      exact ⟨rfl, h⟩
  | ok a =>
      rw [buildSnapshot_of_load (h.loadApplied_eq.trans hload), buildSnapshot_of_load hload,
        h.snapshots]
      exact ⟨rfl, h.takeNumber.putSnapshot _⟩

theorem install (snapshot : Snapshot) :
    (s.installSnapshot snapshot).1 = (t.installSnapshot snapshot).1 ∧
      SameState (s.installSnapshot snapshot).2 (t.installSnapshot snapshot).2 := by
  cases hstate : parseBytes (α := State) snapshot.data with
  | error fault =>
      rw [installSnapshot_of_error hstate, installSnapshot_of_error hstate]
      exact ⟨rfl, h⟩
  | ok state =>
      rw [installSnapshot_of_ok s hstate, installSnapshot_of_ok t hstate]
      exact ⟨rfl, h.replace _ snapshot⟩

/-- What the state side is asked, it answers from the state side. -/
theorem answer (c : StateCall) : c.answer s = c.answer t := by
  cases c with
  | apply entries => exact congrArg StateAnswer.outcomes (h.apply entries).1
  | build => exact congrArg StateAnswer.built h.build.1
  | install snapshot => exact congrArg StateAnswer.installed (h.install snapshot).1
  | applied => exact congrArg StateAnswer.applied h.applied_eq
  | currentSnapshot => exact congrArg StateAnswer.currentSnapshot h.currentSnapshot_eq
  | state => exact congrArg StateAnswer.state h.state

/-- What it is told to do, it does to the state side as it finds it. -/
theorem next (c : StateCall) : SameState (c.next s) (c.next t) := by
  cases c with
  | apply entries => exact (h.apply entries).2
  | build => exact h.build.2
  | install snapshot => exact (h.install snapshot).2
  | applied => exact h
  | currentSnapshot => exact h
  | state => exact h

end SameState

/-! ## calls of both sides -/

/-- A call of either side. -/
abbrev Call := LogCall ⊕ StateCall

namespace Call

/-- The answer to a call. -/
def answer (s : Storage) : Call → LogAnswer ⊕ StateAnswer
  | .inl c => .inl (c.answer s)
  | .inr c => .inr (c.answer s)

/-- The storage behind a call. -/
def next (s : Storage) : Call → Storage
  | .inl c => c.next s
  | .inr c => c.next s

/-- The answers to calls that are made in order. -/
def answers (s : Storage) : List Call → List (LogAnswer ⊕ StateAnswer)
  | [] => []
  | c :: rest => c.answer s :: answers (c.next s) rest

/-- The calls of the log side among others, in order. -/
def ofLog (calls : List Call) : List LogCall := calls.filterMap Sum.getLeft?

/-- The calls of the state side among others, in order. -/
def ofState (calls : List Call) : List StateCall := calls.filterMap Sum.getRight?

/-- Each side of an interleaving goes as it goes alone, from any storage with the same side. -/
theorem answers_apart (calls : List Call) {s t u : Storage} (hlog : SameLog s t)
    (hstate : SameState s u) :
    (answers s calls).filterMap Sum.getLeft? = LogCall.answers t (ofLog calls) ∧
    (answers s calls).filterMap Sum.getRight? = StateCall.answers u (ofState calls) ∧
    SameLog (calls.foldl next s) ((ofLog calls).foldl LogCall.next t) ∧
    SameState (calls.foldl next s) ((ofState calls).foldl StateCall.next u) := by
  induction calls generalizing s t u with
  | nil => exact ⟨rfl, rfl, hlog, hstate⟩
  | cons c rest ih =>
      cases c with
      | inl c =>
          obtain ⟨hleft, hright, hends⟩ :=
            ih (hlog.next c) ((c.sameState_next s).symm.trans hstate)
          exact ⟨congrArg₂ List.cons (hlog.answer c) hleft, hright, hends⟩
      | inr c =>
          obtain ⟨hleft, hright, hends⟩ :=
            ih ((c.sameLog_next s).symm.trans hlog) (hstate.next c)
          exact ⟨hleft, congrArg₂ List.cons (hstate.answer c) hright, hends⟩

end Call

/-- **The two sides do not interfere.**  However calls of the log side and calls of the state side
are interleaved, each of them is answered as if all calls of the log side came first and then all
calls of the state side, failures included, and the storage behind them is the same.  This holds of
every storage, whatever its values.

In particular no call of the log side, such as to purge or truncate it, changes the state in memory
or on disk, what is applied, or the current snapshot; and no call of the state side, such as to
install a snapshot, changes an entry of the log, the vote or the position purged last, whether it
succeeds or not. -/
theorem interleaving_unobservable (s : Storage) (calls : List Call) :
    (∃ behindLog, behindLog = (Call.ofLog calls).foldl LogCall.next s ∧
      (Call.answers s calls).filterMap Sum.getLeft? = LogCall.answers s (Call.ofLog calls) ∧
      (Call.answers s calls).filterMap Sum.getRight?
        = StateCall.answers behindLog (Call.ofState calls) ∧
      calls.foldl Call.next s = (Call.ofState calls).foldl StateCall.next behindLog) ∧
    (∀ c : LogCall, (c.next s).state = s.state ∧ (c.next s).applied = s.applied ∧
      loadApplied (c.next s).disk = loadApplied s.disk ∧
      (c.next s).currentSnapshot = s.currentSnapshot) ∧
    ∀ c : StateCall, (c.next s).disk.log = s.disk.log ∧ (c.next s).readVote = s.readVote ∧
      (c.next s).logState = s.logState ∧
      (c.next s).disk.value .lastPurged = s.disk.value .lastPurged := by
  refine ⟨⟨_, rfl, ?_⟩, fun c => ?_, fun c => ?_⟩
  · have hbehind := LogCall.sameState_foldl s (Call.ofLog calls)
    obtain ⟨hlog, hstate, hlogEnd, hstateEnd⟩ := Call.answers_apart calls (.refl s) hbehind
    have hkept := StateCall.sameLog_foldl ((Call.ofLog calls).foldl LogCall.next s)
      (Call.ofState calls)
    exact ⟨hlog, hstate, (hlogEnd.trans hkept).eq_of_sameState hstateEnd⟩
  · have hsame := (c.sameState_next s).symm
    exact ⟨hsame.state, hsame.applied_eq, hsame.loadApplied_eq, hsame.currentSnapshot_eq⟩
  · have hsame := (c.sameLog_next s).symm
    exact ⟨hsame.log, hsame.readVote_eq, hsame.logState_eq, hsame.value .lastPurged trivial⟩

end ControlPlane.Storage
