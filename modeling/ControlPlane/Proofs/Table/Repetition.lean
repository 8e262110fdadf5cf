import ControlPlane.Proofs.Table.Effect

/-!
# ControlPlane.Proofs.Table.Repetition

Commands that come again.  A data node that is known is accepted once more and stays, a storage
group that was set or deleted is refused the second time, and so are region groups, unless there are
none: the ids that a command has created are taken when it comes again (`newIds_eq_nil_of_again`).
-/

namespace ControlPlane.Table

variable {t t' t'' : Table} {c : Command} {groups : RegionGroupMap}

/-- A command creates no id if it lists no region group. -/
theorem newIds_eq_nil_iff :
    newIds groups.entries = [] ↔ ∀ name rs, groups.get? name = some rs → rs = [] := by
  simp [newIds, SortedMap.get?_eq_some_iff, List.flatMap_eq_nil_iff]

/-- A command that creates region groups twice creates none. -/
theorem newIds_eq_nil_of_again (h : t.apply (.createRegionGroups groups) = .ok t')
    (hagain : t'.apply (.createRegionGroups groups) = .ok t'') : newIds groups.entries = [] := by
  obtain ⟨-, -, hfree⟩ := exists_create_iff.1 ⟨t'', hagain⟩
  refine List.eq_nil_iff_forall_not_mem.2 fun id hid => hfree id hid ?_
  rw [(perm_regionIds_of_create h).mem_iff]
  exact List.mem_append_right _ hid

/-- A command without region groups is accepted as often as its storage groups are there. -/
theorem exists_apply_again (h : t.apply (.createRegionGroups groups) = .ok t')
    (hnil : newIds groups.entries = []) :
    ∃ t'', t'.apply (.createRegionGroups groups) = .ok t'' := by
  rw [exists_create_iff, hnil]
  refine ⟨fun name hname => ?_, List.nodup_nil, List.forall_mem_nil _⟩
  obtain ⟨p, hp⟩ := (exists_create_iff.1 ⟨t', h⟩).1 name hname
  rw [storageGroup?_of_apply h, hp]
  exact ⟨_, rfl⟩

/-- A data node that is registered again stays as it is. -/
theorem nodeBehind_idem (id : Int32) (old : Option Location) (c : Command) :
    nodeBehind id (nodeBehind id old c) c = nodeBehind id old c := by
  cases c with
  | registerDataNode location =>
      simp only [nodeBehind]
      split <;> rfl
  | setStorageGroup schema => rfl
  | deleteStorageGroup name => rfl
  | createRegionGroups groups => rfl

/-- What a command does to a storage group it does once, unless it creates region groups. -/
theorem groupBehind_idem (h : c.regionIds = []) (name : String)
    (old : Option StorageGroupPartition) :
    groupBehind name (groupBehind name old c) c = groupBehind name old c := by
  cases c with
  | registerDataNode location => rfl
  | setStorageGroup schema =>
      simp only [groupBehind]
      split <;> rfl
  | deleteStorageGroup gone =>
      simp only [groupBehind]
      split <;> rfl
  | createRegionGroups groups =>
      have hnone : newGroups groups.entries name = [] := by
        rw [newGroups_eq]
        cases hget : groups.get? name with
        | none => rfl
        | some rs => exact newIds_eq_nil_iff.1 h name rs hget
      cases old <;> simp [groupBehind, hnone]

/-- A command that is accepted twice changes nothing the second time. -/
theorem eq_of_apply_again (h : t.apply c = .ok t') (hagain : t'.apply c = .ok t'') : t'' = t' := by
  have hids : c.regionIds = [] := by
    cases c with
    | createRegionGroups groups => exact newIds_eq_nil_of_again h hagain
    | _ => rfl
  refine ext_lookup (fun id => ?_) fun name => ?_
  · rw [dataNode?_eq_of_apply hagain, dataNode?_eq_of_apply h, nodeBehind_idem]
  · rw [storageGroup?_of_apply hagain, storageGroup?_of_apply h, groupBehind_idem hids]

/-- **A command that comes again** leaves the table as it was behind the first time, accepted or
not.  New region groups that were accepted are refused the second time, unless there are none. -/
theorem repeated_changes_nothing (t : Table) (c : Command) :
    (t.next c).next c = t.next c ∧
      ∀ groups t', c = .createRegionGroups groups → t.apply c = .ok t' →
        ((∃ reason, t'.apply c = .error reason)
          ↔ ∃ name rs, groups.get? name = some rs ∧ rs ≠ []) := by
  constructor
  · cases h : t.apply c with
    | error reason => rw [next_of_error h, next_of_error h]
    | ok t' =>
        rw [next_of_ok h]
        cases hagain : t'.apply c with
        | error reason => rw [next_of_error hagain]
        | ok t'' => rw [next_of_ok hagain, eq_of_apply_again h hagain]
  · rintro groups t' rfl h
    constructor
    · rintro ⟨reason, hrefused⟩
      by_contra hnone
      have hnil : newIds groups.entries = [] := newIds_eq_nil_iff.2 fun name rs hrs => by
        by_contra hne
        exact hnone ⟨name, rs, hrs, hne⟩
      obtain ⟨t'', hagain⟩ := exists_apply_again h hnil
      rw [hagain] at hrefused
      cases hrefused
    · rintro ⟨name, rs, hrs, hne⟩
      cases hagain : t'.apply (.createRegionGroups groups) with
      | error reason => exact ⟨reason, rfl⟩
      | ok t'' => exact absurd (newIds_eq_nil_iff.1 (newIds_eq_nil_of_again h hagain) _ _ hrs) hne

/-- One storage group gains a region group, the other one none. -/
def oneOfBoth : RegionGroupMap := SortedMap.ofList [("g", []), ("h", [bareRegion 1])]

/-- Neither storage group gains a region group. -/
def noneOfBoth : RegionGroupMap := SortedMap.ofList [("g", []), ("h", [])]

theorem repeated_changes_nothing_oneOfBoth :
    (uneven.next (.createRegionGroups oneOfBoth)).next (.createRegionGroups oneOfBoth)
        = uneven.next (.createRegionGroups oneOfBoth) ∧
      (∃ reason, (uneven.next (.createRegionGroups oneOfBoth)).apply
        (.createRegionGroups oneOfBoth) = .error reason) ∧
      ¬∃ reason, (uneven.next (.createRegionGroups noneOfBoth)).apply
        (.createRegionGroups noneOfBoth) = .error reason := by
  obtain ⟨hsame, hone⟩ := repeated_changes_nothing uneven (.createRegionGroups oneOfBoth)
  obtain ⟨-, hnone⟩ := repeated_changes_nothing uneven (.createRegionGroups noneOfBoth)
  refine ⟨hsame, (hone oneOfBoth _ rfl rfl).2 ⟨"h", [bareRegion 1], by decide, by decide⟩,
    fun hrefused => ?_⟩
  obtain ⟨name, rs, hrs, hne⟩ := (hnone noneOfBoth _ rfl rfl).1 hrefused
  have hall : ∀ e ∈ noneOfBoth.entries, e.2 = [] := by decide
  exact hne (hall _ (SortedMap.get?_eq_some_iff.1 hrs))

end ControlPlane.Table
