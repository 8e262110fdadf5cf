import ControlPlane.Proofs.Json.Lawful
import ControlPlane.State.Form

/-!
# ControlPlane.Proofs.Table.Form

The replicated state is read back from JSON: the forms of the table, of the storage groups and
region groups in it, and of the state around it are lawful.
-/

namespace ControlPlane

open Json

/-! ## replica sets -/

instance : LawfulForm GroupType where
  ofJson?_toJson t := by cases t <;> rfl
  reads t := by cases t <;> exact Reads.choice_name rfl

instance : LawfulForm GroupId where
  ofJson?_toJson g := by
    show (do return GroupId.mk (← ofJson? (toJson g.groupType)) (← ofJson? (toJson g.id))) = some g
    simp
  reads _ := Reads.record (by decide) (.cons (reads _) (.cons (reads _) .nil))

instance : LawfulForm Endpoint where
  ofJson?_toJson e := by
    show (do return Endpoint.mk (← ofJson? (toJson e.ip)) (← ofJson? (toJson e.port))) = some e
    simp
  reads _ := Reads.record (by decide) (.cons (reads _) (.cons (reads _) .nil))

instance : LawfulForm Location where
  ofJson?_toJson l := by
    show (do
      return Location.mk (← ofJson? (toJson l.dataNodeId))
        (← ofJson? (toJson l.internalEndpoint))) = some l
    simp
  reads _ := Reads.record (by decide) (.cons (reads _) (.cons (reads _) .nil))

instance : LawfulForm ReplicaSet where
  ofJson?_toJson r := by
    show (do
      return ReplicaSet.mk (← ofJson? (toJson r.regionId))
        (← ofJson? (toJson r.locations))) = some r
    simp
  reads _ := Reads.record (by decide) (.cons (reads _) (.cons (reads _) .nil))

/-! ## storage groups -/

instance : LawfulForm StorageGroupSchema where
  ofJson?_toJson s := by
    show (do
      return StorageGroupSchema.mk (← ofJson? (toJson s.name)) (← ofJson? (toJson s.ttlMs))
        (← ofJson? (toJson s.schemaReplicationFactor)) (← ofJson? (toJson s.dataReplicationFactor))
        (← ofJson? (toJson s.timePartitionIntervalMs))) = some s
    simp
  reads _ := Reads.record (by decide)
    (.cons (reads _) (.cons (reads _) (.cons (reads _) (.cons (reads _) (.cons (reads _) .nil)))))

instance : LawfulForm StorageGroupPartition where
  ofJson?_toJson p := by
    show (do
      return StorageGroupPartition.mk (← ofJson? (toJson p.schema))
        (← ofJson? (toJson p.regionGroups))) = some p
    simp
  reads _ := Reads.record (by decide) (.cons (reads _) (.cons (reads _) .nil))

/-! ## the table and the state -/

instance : LawfulForm Table where
  ofJson?_toJson t := by
    show (do
      return Table.mk (← ofJson? (toJson t.dataNodes))
        (← ofJson? (toJson t.storageGroups))) = some t
    simp
  reads _ := Reads.record (by decide) (.cons (reads _) (.cons (reads _) .nil))

instance : LawfulForm State where
  ofJson?_toJson s := by
    show (do
      return State.mk (← ofJson? (toJson s.table))
        (← ofJson? (toJson s.lastAppliedIndex))) = some s
    simp
  reads _ := Reads.record (by decide) (.cons (reads _) (.cons (reads _) .nil))

end ControlPlane
