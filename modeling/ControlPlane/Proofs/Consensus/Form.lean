import ControlPlane.Consensus.Form
import ControlPlane.Proofs.Table.Form

/-!
# ControlPlane.Proofs.Consensus.Form

The vocabulary of the consensus log is read back from JSON, as far as the log, snapshots and the
applied part need it: positions, memberships, entries and snapshots have lawful forms.
-/

namespace ControlPlane

open Json

/-! ## members -/

instance : LawfulForm Member where
  ofJson?_toJson m := by
    show (do return Member.mk (← ofJson? (toJson m.addr)) (← ofJson? (toJson m.hostname))) = some m
    simp
  reads _ := Reads.record (by decide) (.cons (reads _) (.cons (reads _) .nil))

/-- A set is built back from its ids. -/
theorem NodeSet.ofList_toList (s : NodeSet) : NodeSet.ofList s.toList = s := by
  have hentries : s.toList.map (·, ()) = s.marks.entries := by
    rw [toList, SortedMap.keys, List.map_map]
    exact List.map_id' _
  rw [ofList, hentries, SortedMap.ofList_entries]

instance : LawfulForm NodeSet where
  ofJson?_toJson s := by
    show (ofJson? (toJson s.toList)).map NodeSet.ofList = some s
    rw [ofJson?_toJson, Option.map_some, NodeSet.ofList_toList]
  reads s := reads s.toList

namespace Consensus

/-! ## positions -/

instance : LawfulForm LeaderId where
  ofJson?_toJson l := by
    show (do return LeaderId.mk (← ofJson? (toJson l.term)) (← ofJson? (toJson l.nodeId))) = some l
    simp
  reads _ := Reads.record (by decide) (.cons (reads _) (.cons (reads _) .nil))

instance : LawfulForm LogId where
  ofJson?_toJson l := by
    show (do return LogId.mk (← ofJson? (toJson l.leaderId)) (← ofJson? (toJson l.index))) = some l
    simp
  reads _ := Reads.record (by decide) (.cons (reads _) (.cons (reads _) .nil))

instance : NeverNull LogId where
  head?_ne _ := by
    show some '{' ≠ some 'n'
    decide

/-! ## memberships -/

instance : LawfulForm Membership where
  ofJson?_toJson m := by
    show (do
      return Membership.mk (← ofJson? (toJson m.configs)) (← ofJson? (toJson m.nodes))) = some m
    simp
  reads _ := Reads.record (by decide) (.cons (reads _) (.cons (reads _) .nil))

instance : LawfulForm StoredMembership where
  ofJson?_toJson m := by
    show (do
      return StoredMembership.mk (← ofJson? (toJson m.logId))
        (← ofJson? (toJson m.membership))) = some m
    simp
  reads _ := Reads.record (by decide) (.cons (reads _) (.cons (reads _) .nil))

/-! ## entries -/

instance : LawfulForm Payload where
  ofJson?_toJson
    | .blank => rfl
    | .normal command => by
        show (do return Payload.normal (← ofJson? (toJson command))) = some (.normal command)
        simp
    | .membership m => by
        show (do return Payload.membership (← ofJson? (toJson m))) = some (.membership m)
        simp
  reads
    | .blank => Reads.choice_name rfl
    | .normal command => Reads.choice_value rfl (reads command)
    | .membership m => Reads.choice_value rfl (reads m)

instance : LawfulForm Entry where
  ofJson?_toJson e := by
    show (do return Entry.mk (← ofJson? (toJson e.logId)) (← ofJson? (toJson e.payload))) = some e
    simp
  reads _ := Reads.record (by decide) (.cons (reads _) (.cons (reads _) .nil))

/-! ## snapshots -/

instance : LawfulForm SnapshotMeta where
  ofJson?_toJson m := by
    show (do
      return SnapshotMeta.mk (← ofJson? (toJson m.lastLogId)) (← ofJson? (toJson m.lastMembership))
        (← ofJson? (toJson m.snapshotId))) = some m
    simp
  reads _ := Reads.record (by decide) (.cons (reads _) (.cons (reads _) (.cons (reads _) .nil)))

instance : LawfulForm Snapshot where
  ofJson?_toJson s := by
    show (do return Snapshot.mk (← ofJson? (toJson s.about)) (← ofJson? (toJson s.data))) = some s
    simp
  reads _ := Reads.record (by decide) (.cons (reads _) (.cons (reads _) .nil))

end Consensus

end ControlPlane
