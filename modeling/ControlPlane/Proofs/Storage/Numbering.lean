import ControlPlane.Proofs.Cli.Replica
import ControlPlane.Proofs.Storage.Log
import Mathlib.Data.List.Nodup

/-!
# ControlPlane.Proofs.Storage.Numbering

No two snapshots that are built on one disk have the same name.  A name ends in the number of its
snapshot, behind the last dash, so it gives the number away (`number_of_snapshotName_eq`).  Numbers
count the snapshots that were built before, through all other operations and restarts
(`snapshotId_of_built`); so the names differ, whatever positions they begin with
(`names_never_reused`).
-/

namespace ControlPlane.Storage

open Consensus

/-! ## names -/

/-- How the position of a snapshot is shown in its name; a dash if there is none. -/
def placeLabel (last : Option LogId) : String := (last.map LogId.label).getD "-"

/-- A name is a position, a dash, and a number. -/
theorem snapshotName_eq (last : Option LogId) (number : UInt64) :
    snapshotName last number = placeLabel last ++ "-" ++ Decimal.natural number.toNat := by
  cases last <;> rfl

/-- Digits have no dash. -/
theorem dash_not_mem_digits (n : Nat) : '-' ∉ Decimal.digits n := by
  intro h
  have hdigit := Decimal.isDigit_of_mem_digits h
  revert hdigit
  decide

/-- The number of a name stands behind its last dash, whatever dashes its position has. -/
theorem cutLast_snapshotName (last : Option LogId) (number : UInt64) :
    Cli.cutLast '-' (snapshotName last number).toList
      = some ((placeLabel last).toList, Decimal.digits number.toNat) := by
  have hchars : (snapshotName last number).toList
      = (placeLabel last).toList ++ '-' :: Decimal.digits number.toNat := by
    rw [snapshotName_eq]
    simp [Decimal.natural]
  rw [hchars, Cli.cutLast_append (dash_not_mem_digits _)]

/-- Snapshots with one name have one number. -/
theorem number_of_snapshotName_eq {last last' : Option LogId} {number number' : UInt64}
    (h : snapshotName last number = snapshotName last' number') : number = number' := by
  have hcut := cutLast_snapshotName last number
  rw [h, cutLast_snapshotName, Option.some.injEq, Prod.mk.injEq] at hcut
  have hvalue := congrArg Decimal.value hcut.2
  rw [Decimal.value_digits, Decimal.value_digits] at hvalue
  exact (UInt64.toNat_inj.1 hvalue).symm

/-! ## the snapshots that a run builds -/

/-- Whether an event is to build a snapshot. -/
def Event.isBuild : Event → Bool
  | .run .build => true
  | _ => false

/-- The snapshot that an event builds, unless that fails. -/
def Event.built? (s : Storage) : Event → Option Snapshot
  | .run .build => s.buildSnapshot.1.toOption
  | _ => none

/-- The snapshots that the events of a run build, in order. -/
def snapshotsBuilt (s : Storage) : List Event → List Snapshot
  | [] => []
  | event :: rest =>
    (event.built? s).toList ++
      match event.next? s with
      | none => []
      | some s' => snapshotsBuilt s' rest

/-- Any other event leaves the number of snapshots as it is. -/
theorem exists_next_of_not_build {s : Storage} (hs : Reachable s) {event : Event}
    (h : event.isBuild = false) :
    ∃ s', event.next? s = some s' ∧ Reachable s' ∧ s'.snapshots = s.snapshots ∧
      event.built? s = none := by
  cases event with
  | reopen policy =>
      have hopen := hs.sound.open?_eq policy
      exact ⟨{ s with policy }, hopen, hs.reopen hopen, rfl, rfl⟩
  | run op =>
      have hop : op ≠ .build := by
        rintro rfl
        cases h
      refine ⟨op.run s, rfl, hs.run op, snapshots_run hop s, ?_⟩
      cases op with
      | build => exact absurd rfl hop
      | append entries => rfl
      | truncate from' => rfl
      | purge upTo => rfl
      | saveVote v => rfl
      | apply entries => rfl
      | install snapshot => rfl

/-- To build a snapshot succeeds, with the next number in its name. -/
theorem exists_built {s : Storage} (hs : Reachable s) :
    ∃ snapshot, s.buildSnapshot.1 = .ok snapshot ∧
      snapshot.about.snapshotId = snapshotName snapshot.about.lastLogId (s.snapshots + 1) ∧
      (Operation.run s .build).snapshots = s.snapshots + 1 := by
  obtain ⟨a, ha, -⟩ := hs.sound.inSync
  refine ⟨snapshotOf a (s.snapshots + 1), ?_, rfl, ?_⟩
  · rw [buildSnapshot, ha]
    rfl
  · rw [Operation.run, buildSnapshot, ha]
    rfl

section Run

variable {s : Storage} (hs : Reachable s)
include hs

/-- What a run builds that begins with some other event. -/
theorem exists_snapshotsBuilt_of_not_build {event : Event} (h : event.isBuild = false)
    (rest : List Event) :
    ∃ s', Reachable s' ∧ s'.snapshots = s.snapshots ∧ event.next? s = some s' ∧
      snapshotsBuilt s (event :: rest) = snapshotsBuilt s' rest := by
  obtain ⟨s', hnext, hs', hnumber, hbuilt⟩ := exists_next_of_not_build hs h
  refine ⟨s', hs', hnumber, hnext, ?_⟩
  rw [snapshotsBuilt, hbuilt, hnext]
  rfl

/-- What a run builds that begins with a snapshot. -/
theorem exists_snapshotsBuilt_of_build (rest : List Event) :
    ∃ snapshot,
      snapshot.about.snapshotId = snapshotName snapshot.about.lastLogId (s.snapshots + 1) ∧
      (Operation.run s .build).snapshots = s.snapshots + 1 ∧
      snapshotsBuilt s (.run .build :: rest)
        = snapshot :: snapshotsBuilt (Operation.run s .build) rest := by
  obtain ⟨snapshot, hsnapshot, hname, hnumber⟩ := exists_built hs
  refine ⟨snapshot, hname, hnumber, ?_⟩
  rw [snapshotsBuilt, Event.built?, hsnapshot]
  rfl

omit hs in
theorem eq_build_of_isBuild {event : Event} (h : event.isBuild = true) :
    event = .run .build := by
  unfold Event.isBuild at h
  split at h
  · rfl
  · cases h

/-- A run builds as many snapshots as it is asked to. -/
theorem length_snapshotsBuilt (events : List Event) :
    (snapshotsBuilt s events).length = events.countP Event.isBuild := by
  induction events generalizing s with
  | nil => rfl
  | cons event rest ih =>
      by_cases hevent : event.isBuild = true
      · obtain ⟨snapshot, -, -, hbuilt⟩ := exists_snapshotsBuilt_of_build hs rest
        rw [List.countP_cons_of_pos hevent, eq_build_of_isBuild hevent, hbuilt, List.length_cons,
          ih (hs.run .build)]
      · obtain ⟨s', hs', -, -, hbuilt⟩ :=
          exists_snapshotsBuilt_of_not_build hs (Bool.eq_false_iff.2 hevent) rest
        rw [List.countP_cons_of_neg hevent, hbuilt, ih hs']

/-- A snapshot has the number of those before it in its name, and one more. -/
theorem snapshotId_of_built {events : List Event} {n : Nat} {snapshot : Snapshot}
    (h : (snapshotsBuilt s events)[n]? = some snapshot) :
    snapshot.about.snapshotId
      = snapshotName snapshot.about.lastLogId (s.snapshots + UInt64.ofNat (n + 1)) := by
  induction events generalizing s n with
  | nil => cases h
  | cons event rest ih =>
      by_cases hevent : event.isBuild = true
      · obtain ⟨first, hname, hnumber, hbuilt⟩ := exists_snapshotsBuilt_of_build hs rest
        rw [eq_build_of_isBuild hevent, hbuilt] at h
        cases n with
        | zero =>
            rw [List.getElem?_cons_zero, Option.some.injEq] at h
            rw [← h, hname]
            rfl
        | succ n =>
            rw [List.getElem?_cons_succ] at h
            rw [ih (hs.run .build) h, hnumber, UInt64.add_assoc, UInt64.ofNat_add (n + 1) 1,
              UInt64.add_comm 1]
            rfl
      · obtain ⟨s', hs', hnumber, -, hbuilt⟩ :=
          exists_snapshotsBuilt_of_not_build hs (Bool.eq_false_iff.2 hevent) rest
        rw [hbuilt] at h
        rw [ih hs' h, hnumber]

end Run

/-! ## names are never reused -/

/-- **Names of snapshots are never reused.**  On a new disk, whatever is done to the storage, with
or without success, and however often it is closed and opened again: every call to build a snapshot
succeeds, the number in the name counts those calls, and no two snapshots have the same name,
whatever is applied when they are built. -/
theorem names_never_reused (policy : DecodePolicy) (events : List Event)
    (hroom : events.countP Event.isBuild < UInt64.size) :
    ∃ built, snapshotsBuilt (create policy) events = built ∧
      (∃ s, events.foldlM Event.next? (create policy) = some s) ∧
      built.length = events.countP Event.isBuild ∧
      (∀ n snapshot, built[n]? = some snapshot → snapshot.about.snapshotId
        = placeLabel snapshot.about.lastLogId ++ "-" ++ Decimal.natural (n + 1)) ∧
      (built.map (·.about.snapshotId)).Nodup := by
  have hnew : Reachable (create policy) := .start policy rfl
  obtain ⟨s, hreplay, -, -⟩ := exists_replay hnew Shows.empty events
  have hlength := length_snapshotsBuilt hnew events
  have hname {n : Nat} {snapshot : Snapshot}
      (h : (snapshotsBuilt (create policy) events)[n]? = some snapshot) :
      snapshot.about.snapshotId
        = snapshotName snapshot.about.lastLogId (UInt64.ofNat (n + 1)) := by
    rw [snapshotId_of_built hnew h]
    exact congrArg _ (UInt64.zero_add _)
  have hnumber {n : Nat} {snapshot : Snapshot}
      (h : (snapshotsBuilt (create policy) events)[n]? = some snapshot) :
      (UInt64.ofNat (n + 1)).toNat = n + 1 := by
    have hlt : n < _ := (List.getElem?_eq_some_iff.1 h).1
    exact UInt64.toNat_ofNat_of_lt' (by omega)
  refine ⟨_, rfl, ⟨s, hreplay⟩, hlength, fun n snapshot h => ?_, ?_⟩
  · rw [hname h, snapshotName_eq, hnumber h]
  · refine List.pairwise_iff_getElem.2 fun i j hi hj hij heq => ?_
    rw [List.getElem_map, List.getElem_map] at heq
    have hfirst := List.getElem?_eq_getElem (List.length_map _ ▸ hi)
    have hsecond := List.getElem?_eq_getElem (List.length_map _ ▸ hj)
    rw [hname hfirst, hname hsecond] at heq
    have hsame := congrArg UInt64.toNat (number_of_snapshotName_eq heq)
    rw [hnumber hfirst, hnumber hsecond] at hsame
    omega

/-- A snapshot is built of nothing; then one with the same name is installed, and after a restart
two more are built. -/
def namedEvents : List Event :=
  [.run .build, .run (.install ⟨⟨some ⟨⟨2, 1⟩, 9⟩, StoredMembership.initial, "--1"⟩,
      Json.writeBytes State.initial⟩), .reopen .skip, .run .build, .run .build]

theorem names_never_reused_namedEvents :
    namedEvents.countP Event.isBuild < UInt64.size ∧
      ∃ first second third, snapshotsBuilt (create .halt) namedEvents = [first, second, third] ∧
        first.about.snapshotId
          = placeLabel first.about.lastLogId ++ "-" ++ Decimal.natural 1 ∧
        third.about.snapshotId
          = placeLabel third.about.lastLogId ++ "-" ++ Decimal.natural 3 ∧
        second.about.snapshotId ≠ third.about.snapshotId := by
  have hroom : namedEvents.countP Event.isBuild < UInt64.size := by decide
  obtain ⟨built, hbuilt, -, hlength, hnames, hnodup⟩ := names_never_reused .halt namedEvents hroom
  obtain ⟨first, second, third, rfl⟩ := List.length_eq_three.1 hlength
  refine ⟨hroom, first, second, third, hbuilt, hnames 0 first rfl, hnames 2 third rfl, ?_⟩
  simp only [List.map_cons, List.map_nil, List.nodup_cons, List.mem_cons, not_or] at hnodup
  exact hnodup.2.1.1

end ControlPlane.Storage
