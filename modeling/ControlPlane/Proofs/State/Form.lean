import ControlPlane.Proofs.Table.Form

/-!
# ControlPlane.Proofs.State.Form

What nodes and clients are told of the replicated state is read back from JSON: the forms of views,
of the outcomes of log entries, of the reasons why the table refuses a command, and of the kinds of
commands are lawful.
-/

namespace ControlPlane

open Json

/-! ## views -/

instance : LawfulForm View where
  ofJson?_toJson v := by
    show (do
      return View.mk (← ofJson? (toJson v.dataNodes)) (← ofJson? (toJson v.storageGroups))
        (← ofJson? (toJson v.lastAppliedIndex)) (← ofJson? (toJson v.leaderId))
        (← ofJson? (toJson v.term))) = some v
    simp
  reads _ := Reads.record (by decide)
    (.cons (reads _) (.cons (reads _) (.cons (reads _) (.cons (reads _) (.cons (reads _) .nil)))))

/-! ## rejections -/

instance : LawfulForm Rejection where
  ofJson?_toJson r := by
    cases r with
    | storageGroupNotFound name => rfl
    | storageGroupAlreadyExists name => rfl
    | invalidStorageGroup name reason => rfl
    | regionGroupAlreadyExists storageGroup region => rfl
    | dataNodeConflict id =>
        show (do return Rejection.dataNodeConflict (← ofJson? (toJson id)))
          = some (.dataNodeConflict id)
        simp
  reads r := by
    cases r with
    | storageGroupNotFound name => exact Reads.choice_value rfl (reads name)
    | storageGroupAlreadyExists name => exact Reads.choice_value rfl (reads name)
    | invalidStorageGroup name reason =>
        exact Reads.choice_value rfl
          (Reads.record (by decide) (.cons (reads name) (.cons (reads reason) .nil)))
    | regionGroupAlreadyExists storageGroup region =>
        exact Reads.choice_value rfl
          (Reads.record (by decide) (.cons (reads storageGroup) (.cons (reads region) .nil)))
    | dataNodeConflict id =>
        exact Reads.choice_value rfl (Reads.record (by decide) (.cons (reads id) .nil))

/-! ## outcomes -/

instance : LawfulForm Outcome where
  ofJson?_toJson
    | .applied => rfl
    | .rejected reason => by
        show (do return Outcome.rejected (← ofJson? (toJson reason))) = some (.rejected reason)
        simp
    | .skipped _ => rfl
  reads
    | .applied => Reads.choice_name rfl
    | .rejected reason => Reads.choice_value rfl (reads reason)
    | .skipped reason =>
        Reads.choice_value rfl (Reads.record (by decide) (.cons (reads reason) .nil))

/-! ## names -/

instance : LawfulForm DecodePolicy where
  ofJson?_toJson p := by cases p <;> rfl
  reads p := by cases p <;> exact Reads.choice_name rfl

instance : LawfulForm CommandKind where
  ofJson?_toJson k := by cases k <;> rfl
  reads k := by cases k <;> exact Reads.choice_name rfl

end ControlPlane
