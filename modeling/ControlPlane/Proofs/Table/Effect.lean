import ControlPlane.Proofs.Table.History

/-!
# ControlPlane.Proofs.Table.Effect

What a command leaves alone, and what the table says to it.  A table is what its look-ups find
(`ext_lookup`), and an accepted command changes only the storage groups that it mentions
(`groupBehind_of_not_mem`).  An id is taken if some storage group has it (`mem_regionIds_iff`), so
it becomes taken only when it is created, and free only when the storage group that has it is
deleted (`mem_regionIds_of_apply`).
-/

namespace ControlPlane

namespace Command

/-- The storage groups that a command mentions. -/
def names : Command → List String
  | .registerDataNode _ => []
  | .setStorageGroup schema => [schema.name]
  | .deleteStorageGroup name => [name]
  | .createRegionGroups groups => groups.keys

/-- The ids of the region groups that a command creates, in order. -/
def regionIds : Command → List GroupId
  | .createRegionGroups groups => Table.newIds groups.entries
  | _ => []

end Command

namespace Table

variable {t t' : Table} {c : Command} {name : String} {id : GroupId}

/-! ## look-ups -/

/-- A table is what its look-ups find. -/
theorem ext_lookup (hnode : ∀ id, t.dataNode? id = t'.dataNode? id)
    (hgroup : ∀ name, t.storageGroup? name = t'.storageGroup? name) : t = t' := by
  obtain ⟨nodes, groups⟩ := t
  obtain ⟨nodes', groups'⟩ := t'
  rw [Table.mk.injEq]
  exact ⟨SortedMap.ext_get? hnode, SortedMap.ext_get? hgroup⟩

/-- The ids of the region groups of a storage group. -/
def regionIdsOf (t : Table) (name : String) : List GroupId :=
  (t.regionGroupsOf name).map (·.regionId)

theorem mem_regionIdsOf_iff :
    id ∈ t.regionIdsOf name
      ↔ ∃ p, t.storageGroup? name = some p ∧ id ∈ p.regionGroups.map (·.regionId) := by
  rw [regionIdsOf, regionGroupsOf, storageGroup?]
  cases t.storageGroups.get? name <;> simp

/-- An id is taken if it is that of a region group of some storage group. -/
theorem mem_regionIds_iff : id ∈ t.regionIds ↔ ∃ name, id ∈ t.regionIdsOf name := by
  simp only [mem_regionIdsOf_iff, storageGroup?, SortedMap.get?_eq_some_iff, regionIds,
    regionGroups, SortedMap.values, List.mem_map, List.mem_flatMap]
  constructor
  · rintro ⟨r, ⟨p, ⟨e, he, rfl⟩, hr⟩, rfl⟩
    exact ⟨e.1, e.2, he, r, hr, rfl⟩
  · rintro ⟨name, p, hp, r, hr, rfl⟩
    exact ⟨r, ⟨p, ⟨(name, p), hp, rfl⟩, hr⟩, rfl⟩

/-- The region groups that a command creates in a storage group are those that it lists there. -/
theorem newGroups_eq (groups : RegionGroupMap) (name : String) :
    newGroups groups.entries name = (groups.get? name).getD [] := by
  rw [newGroups, SortedMap.filter_entries_eq]
  cases groups.get? name <;> simp

theorem mem_newIds_of_mem_newGroups {l : List (String × List ReplicaSet)}
    (h : id ∈ (newGroups l name).map (·.regionId)) : id ∈ newIds l := by
  obtain ⟨r, hr, rfl⟩ := List.mem_map.1 h
  obtain ⟨e, he, hmem⟩ := List.mem_flatMap.1 hr
  exact List.mem_map_of_mem (List.mem_flatMap.2 ⟨e, (List.mem_filter.1 he).1, hmem⟩)

/-! ## accepted commands -/

/-- A storage group that a command does not mention stays as it is. -/
theorem groupBehind_of_not_mem (h : name ∉ c.names) (old : Option StorageGroupPartition) :
    groupBehind name old c = old := by
  cases c with
  | registerDataNode location => rfl
  | setStorageGroup schema => exact if_neg fun hname => h (List.mem_singleton.2 hname)
  | deleteStorageGroup gone => exact if_neg fun hname => h (List.mem_singleton.2 hname)
  | createRegionGroups groups =>
      have hget : groups.get? name = none := SortedMap.not_mem_keys_iff.1 h
      cases old <;> simp [groupBehind, newGroups_eq, hget]

/-- An id that a command neither creates nor takes away with its storage group is as taken, or as
free, as it was. -/
theorem mem_regionIds_of_apply (h : t.apply c = .ok t') (hnew : id ∉ c.regionIds)
    (hgone : ∀ gone, c = .deleteStorageGroup gone → id ∉ t.regionIdsOf gone) :
    id ∈ t'.regionIds ↔ id ∈ t.regionIds := by
  rw [mem_regionIds_iff, mem_regionIds_iff]
  refine exists_congr fun name => ?_
  rw [mem_regionIdsOf_iff, mem_regionIdsOf_iff, storageGroup?_of_apply h]
  -- Only a storage group that the command mentions could have other ids than before.
  by_cases hname : name ∈ c.names
  · cases c with
    | registerDataNode location => cases hname
    | setStorageGroup schema =>
        obtain rfl := List.mem_singleton.1 hname
        simp [groupBehind, storageGroup?_of_apply_set h]
    | deleteStorageGroup gone =>
        obtain rfl := List.mem_singleton.1 hname
        have hnot := hgone name rfl
        rw [mem_regionIdsOf_iff] at hnot
        simp only [groupBehind, if_true, reduceCtorEq, false_and, exists_false, false_iff]
        exact hnot
    | createRegionGroups groups =>
        have hnot : id ∉ (newGroups groups.entries name).map (·.regionId) := fun h =>
          hnew (mem_newIds_of_mem_newGroups h)
        cases t.storageGroup? name with
        | none => simp [groupBehind]
        | some p =>
            simp only [groupBehind, Option.map_some, Option.some.injEq, exists_eq_left',
              List.map_append, List.mem_append, hnot, or_false]
  · rw [groupBehind_of_not_mem hname]

/-- New region groups are accepted if their storage groups are there, and no id would be there
twice. -/
theorem exists_create_iff {groups : RegionGroupMap} :
    (∃ t', t.apply (.createRegionGroups groups) = .ok t')
      ↔ (∀ name ∈ groups.keys, ∃ p, t.storageGroup? name = some p) ∧
        (newIds groups.entries).Nodup ∧ ∀ id ∈ newIds groups.entries, id ∉ t.regionIds := by
  simp only [apply, createRegionGroups_eq_ok_iff, exists_and_left, exists_eq, and_true,
    List.Disjoint, SortedMap.keys, List.forall_mem_map, SortedMap.contains, storageGroup?,
    Option.isSome_iff_exists]

/-! ## verdicts -/

/-- Whether the table accepts a command, or why not. -/
def verdict (t : Table) (c : Command) : Except Rejection Unit := (t.apply c).map fun _ => ()

theorem next_of_ok (h : t.apply c = .ok t') : t.next c = t' := by
  rw [next, h]
  rfl

/-- A command that is refused leaves the table as it is. -/
theorem next_of_error {reason : Rejection} (h : t.apply c = .error reason) : t.next c = t := by
  rw [next, h]
  rfl

theorem verdict_eq_error_iff {reason : Rejection} :
    t.verdict c = .error reason ↔ t.apply c = .error reason := by
  rw [verdict]
  cases t.apply c <;> simp [Except.map]

theorem verdict_of_ok (h : t.apply c = .ok t') : t.verdict c = .ok () := by
  rw [verdict, h]
  rfl

theorem verdict_eq_ok_iff : t.verdict c = .ok () ↔ t.apply c = .ok (t.next c) := by
  rw [verdict, next]
  cases t.apply c with
  | ok t' => exact iff_of_true rfl rfl
  | error reason => simp [Except.map]

/-- Verdicts are the same if they are the same refusals. -/
theorem verdict_eq_iff :
    t.verdict c = t'.verdict c
      ↔ ∀ reason, t.apply c = .error reason ↔ t'.apply c = .error reason := by
  simp only [← verdict_eq_error_iff]
  constructor
  · intro h reason
    rw [h]
  · intro h
    cases hverdict : t.verdict c with
    | error reason => rw [(h reason).1 hverdict]
    | ok u =>
        cases hverdict' : t'.verdict c with
        | error reason => rw [(h reason).2 hverdict'] at hverdict; cases hverdict
        | ok u' => rfl

end Table

end ControlPlane
