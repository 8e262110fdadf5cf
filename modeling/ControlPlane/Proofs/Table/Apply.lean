import ControlPlane.Proofs.SortedMap
import ControlPlane.Proofs.Wire.Frame
import ControlPlane.State
import Mathlib.Data.List.Nodup
import Mathlib.Data.List.Perm.Basic

/-!
# ControlPlane.Proofs.Table.Apply

When the table accepts a command, and what it is then.  There is one equivalence for each kind of
command; the one for new region groups says that their ids occur neither in the table nor twice in
the command, and `perm_groupsOf_foldl` that nothing else is added.
-/

namespace ControlPlane.Table

open scoped List

/-- The table behind a command; one that is refused changes nothing. -/
def next (t : Table) (c : Command) : Table := (t.apply c).toOption.getD t

/-- The ids of all region groups, by storage group. -/
def regionIds (t : Table) : List GroupId := t.regionGroups.map (·.regionId)

/-- The ids of the region groups of a command, in order. -/
def newIds (l : List (String × List ReplicaSet)) : List GroupId :=
  (l.flatMap (·.2)).map (·.regionId)

@[simp] theorem newIds_nil : newIds [] = [] := rfl

@[simp] theorem newIds_cons (e : String × List ReplicaSet) (l : List (String × List ReplicaSet)) :
    newIds (e :: l) = e.2.map (·.regionId) ++ newIds l := by
  simp [newIds]

/-! ## data nodes and storage groups -/

/-- A data node is accepted if it is new, or known at the same location. -/
theorem registerDataNode_eq_ok_iff {t t' : Table} {location : Location} :
    t.registerDataNode location = .ok t'
      ↔ (t.dataNodes.get? location.dataNodeId = none
          ∧ t' = { t with dataNodes := t.dataNodes.insert location.dataNodeId location })
        ∨ (t.dataNodes.get? location.dataNodeId = some location ∧ t' = t) := by
  rw [registerDataNode]
  cases h : t.dataNodes.get? location.dataNodeId with
  | none => simp [eq_comm]
  | some known =>
      by_cases heq : known = location
      · simp [heq, eq_comm]
      · simp [heq]

/-- A storage group is accepted if it is new, has a name, and asks for replicas. -/
theorem setStorageGroup_eq_ok_iff {t t' : Table} {schema : StorageGroupSchema} :
    t.setStorageGroup schema = .ok t'
      ↔ schema.name ≠ "" ∧ 1 ≤ schema.schemaReplicationFactor ∧ 1 ≤ schema.dataReplicationFactor
        ∧ t.storageGroups.get? schema.name = none
        ∧ t' = { t with storageGroups := t.storageGroups.insert schema.name ⟨schema, []⟩ } := by
  rw [setStorageGroup]
  split
  · next h => simp [h]
  · next h =>
      split
      · next hfactor =>
          simp only [reduceCtorEq, false_iff, ← Int32.not_lt]
          intro haccepted
          exact hfactor.elim haccepted.2.1 haccepted.2.2.1
      · next hfactor =>
          rw [not_or, Int32.not_lt, Int32.not_lt] at hfactor
          cases hget : t.storageGroups.get? schema.name with
          | none => simp [SortedMap.contains, hget, h, hfactor, eq_comm]
          | some p => simp [SortedMap.contains, hget]

/-- A storage group can be deleted if it is there. -/
theorem deleteStorageGroup_eq_ok_iff {t t' : Table} {name : String} :
    t.deleteStorageGroup name = .ok t'
      ↔ t.storageGroups.contains name = true
        ∧ t' = { t with storageGroups := t.storageGroups.erase name } := by
  rw [deleteStorageGroup]
  split
  · next h => simp [h, eq_comm]
  · next h => simp [h]

/-! ## region groups -/

/-- Region groups of one storage group are allocated if their ids are not taken, and no two of them
have one id. -/
theorem allocate_eq_ok_iff {storageGroup : String} {rs : List ReplicaSet}
    {taken taken' : List GroupId} :
    allocate storageGroup taken rs = .ok taken'
      ↔ (rs.map (·.regionId)).Nodup ∧ (rs.map (·.regionId)).Disjoint taken
        ∧ taken' = (rs.map (·.regionId)).reverse ++ taken := by
  induction rs generalizing taken with
  | nil => simp [allocate, eq_comm]
  | cons r rest ih =>
      rw [allocate]
      split
      · next h => simp [h]
      · next h =>
          simp only [ih, List.map_cons, List.nodup_cons, List.disjoint_cons_left,
            List.disjoint_cons_right, List.reverse_cons, List.append_assoc, List.singleton_append]
          tauto

/-- Region groups of several storage groups are allocated if the storage groups are there, the ids
are not taken, and no two of them are the same. -/
theorem allocateAll_eq_ok_iff {t : Table} {l : List (String × List ReplicaSet)}
    {taken taken' : List GroupId} :
    t.allocateAll taken l = .ok taken'
      ↔ (∀ e ∈ l, t.storageGroups.contains e.1 = true) ∧ (newIds l).Nodup
        ∧ (newIds l).Disjoint taken ∧ taken' = (newIds l).reverse ++ taken := by
  induction l generalizing taken with
  | nil =>
      rw [allocateAll, Except.ok.injEq, eq_comm]
      simp
  | cons e rest ih =>
      rw [allocateAll]
      split
      · next h =>
          rw [Wire.except_bind_eq_ok_iff]
          simp only [allocate_eq_ok_iff, ih, newIds_cons, List.forall_mem_cons, h, true_and,
            List.nodup_append', List.disjoint_append_left, List.reverse_append, List.append_assoc]
          constructor
          · intro h
            obtain ⟨_, ⟨hnodup, hfree, rfl⟩, hexist, hnodup', hfree', rfl⟩ := h
            rw [List.disjoint_append_right, List.disjoint_reverse_right] at hfree'
            exact ⟨hexist, ⟨hnodup, hnodup', List.disjoint_symm hfree'.1⟩, ⟨hfree, hfree'.2⟩, rfl⟩
          · intro h
            obtain ⟨hexist, ⟨hnodup, hnodup', hdisjoint⟩, ⟨hfree, hfree'⟩, rfl⟩ := h
            refine ⟨_, ⟨hnodup, hfree, rfl⟩, hexist, hnodup', ?_, rfl⟩
            rw [List.disjoint_append_right, List.disjoint_reverse_right]
            exact ⟨List.disjoint_symm hdisjoint, hfree'⟩
      · next h => simp [h]

/-- New region groups are accepted if their storage groups are there, and no id would be there
twice. -/
theorem createRegionGroups_eq_ok_iff {t t' : Table} {groups : RegionGroupMap} :
    t.createRegionGroups groups = .ok t'
      ↔ (∀ e ∈ groups.entries, t.storageGroups.contains e.1 = true)
        ∧ (newIds groups.entries).Nodup ∧ (newIds groups.entries).Disjoint t.regionIds
        ∧ t' = { t with storageGroups :=
            groups.entries.foldl appendRegionGroups t.storageGroups } := by
  rw [createRegionGroups, Wire.except_bind_eq_ok_iff]
  simp only [allocateAll_eq_ok_iff, Wire.except_pure_eq_ok_iff]
  constructor
  · intro h
    obtain ⟨_, ⟨hexist, hnodup, hfree, -⟩, rfl⟩ := h
    exact ⟨hexist, hnodup, hfree, rfl⟩
  · intro h
    obtain ⟨hexist, hnodup, hfree, rfl⟩ := h
    exact ⟨_, ⟨hexist, hnodup, hfree, rfl⟩, rfl⟩

/-! ## appending region groups -/

/-- The region groups of some storage groups, in order. -/
def groupsOf (groups : SortedMap String StorageGroupPartition) : List ReplicaSet :=
  groups.values.flatMap (·.regionGroups)

section Append

variable {groups : SortedMap String StorageGroupPartition}

/-- Region groups are those of one storage group and those of the others. -/
theorem perm_groupsOf_erase {name : String} {p : StorageGroupPartition}
    (h : groups.get? name = some p) :
    groupsOf groups ~ p.regionGroups ++ groupsOf (groups.erase name) :=
  List.Perm.flatMap_right StorageGroupPartition.regionGroups
    ((SortedMap.perm_erase h).map Prod.snd)

/-- A storage group that is set replaces the one of its name. -/
theorem perm_groupsOf_insert (groups : SortedMap String StorageGroupPartition) (name : String)
    (p : StorageGroupPartition) :
    groupsOf (groups.insert name p) ~ p.regionGroups ++ groupsOf (groups.erase name) :=
  List.Perm.flatMap_right StorageGroupPartition.regionGroups
    ((SortedMap.perm_insert groups name p).map Prod.snd)

/-- Appending to a storage group leaves the others and its schema as they are. -/
theorem get?_appendRegionGroups (groups : SortedMap String StorageGroupPartition)
    (e : String × List ReplicaSet) (name : String) :
    (appendRegionGroups groups e).get? name
      = (groups.get? name).map fun p =>
          if name = e.1 then { p with regionGroups := p.regionGroups ++ e.2 } else p := by
  rw [appendRegionGroups]
  cases hget : groups.get? e.1 with
  | none =>
      by_cases hname : name = e.1
      · simp [hname, hget]
      · simp [hname]
  | some p =>
      by_cases hname : name = e.1
      · simp [hname, hget]
      · simp [hname]

/-- Appending to a storage group adds what is appended. -/
theorem perm_groupsOf_append {e : String × List ReplicaSet} (h : groups.contains e.1 = true) :
    groupsOf (appendRegionGroups groups e) ~ groupsOf groups ++ e.2 := by
  obtain ⟨p, hp⟩ := Option.isSome_iff_exists.1 h
  simp only [appendRegionGroups, hp]
  calc groupsOf (groups.insert e.1 { p with regionGroups := p.regionGroups ++ e.2 })
      ~ (p.regionGroups ++ e.2) ++ groupsOf (groups.erase e.1) := perm_groupsOf_insert ..
    _ ~ (p.regionGroups ++ groupsOf (groups.erase e.1)) ++ e.2 := by
      rw [List.append_assoc, List.append_assoc]
      exact List.perm_append_comm.append_left _
    _ ~ groupsOf groups ++ e.2 := (perm_groupsOf_erase hp).symm.append_right _

/-- Appending to several storage groups adds all that is appended. -/
theorem perm_groupsOf_foldl {l : List (String × List ReplicaSet)}
    (h : ∀ e ∈ l, groups.contains e.1 = true) :
    groupsOf (l.foldl appendRegionGroups groups) ~ groupsOf groups ++ l.flatMap (·.2) := by
  induction l generalizing groups with
  | nil => simp
  | cons e rest ih =>
      obtain ⟨hhead, hrest⟩ := List.forall_mem_cons.1 h
      have hkeep : ∀ e' ∈ rest, (appendRegionGroups groups e).contains e'.1 = true := by
        intro e' he'
        have hthere := hrest e' he'
        rw [SortedMap.contains] at hthere ⊢
        rwa [get?_appendRegionGroups, Option.isSome_map]
      calc groupsOf (rest.foldl appendRegionGroups (appendRegionGroups groups e))
          ~ groupsOf (appendRegionGroups groups e) ++ rest.flatMap (·.2) := ih hkeep
        _ ~ (groupsOf groups ++ e.2) ++ rest.flatMap (·.2) :=
          (perm_groupsOf_append hhead).append_right _
        _ = groupsOf groups ++ (e :: rest).flatMap (·.2) := by simp

/-- The region groups that a command creates in a storage group. -/
def newGroups (l : List (String × List ReplicaSet)) (name : String) : List ReplicaSet :=
  (l.filter fun e => name = e.1).flatMap (·.2)

/-- Appending to several storage groups leaves all else of each as it is. -/
theorem get?_foldl_appendRegionGroups (l : List (String × List ReplicaSet))
    (groups : SortedMap String StorageGroupPartition) (name : String) :
    (l.foldl appendRegionGroups groups).get? name
      = (groups.get? name).map fun p =>
          { p with regionGroups := p.regionGroups ++ newGroups l name } := by
  induction l generalizing groups with
  | nil => simp [newGroups]
  | cons e rest ih =>
      rw [List.foldl_cons, ih, get?_appendRegionGroups, Option.map_map]
      refine congrArg (Option.map · _) (funext fun p => ?_)
      by_cases hname : name = e.1
      · simp [newGroups, hname]
      · simp [newGroups, hname]

end Append

/-- The ids that are taken behind new region groups are those that were, and the new ones. -/
theorem perm_regionIds_of_create {t t' : Table} {groups : RegionGroupMap}
    (h : t.createRegionGroups groups = .ok t') :
    t'.regionIds ~ t.regionIds ++ newIds groups.entries := by
  obtain ⟨hexist, -, -, rfl⟩ := createRegionGroups_eq_ok_iff.1 h
  have hperm := (perm_groupsOf_foldl hexist).map ReplicaSet.regionId
  rwa [List.map_append] at hperm

end ControlPlane.Table

/-! ## the state around the table -/

namespace ControlPlane.State

/-- A command that the table refuses leaves it as it is. -/
theorem table_apply (s : State) (c : Command) :
    (s.apply c).2.table = (s.table.apply c).toOption.getD s.table := by
  rw [apply]
  cases s.table.apply c <;> rfl

theorem applyEncoded_of_ok {b : Bytes} {c : Command} (h : Command.decode b = .ok c) (s : State) :
    s.applyEncoded b = .ok (s.apply c) := by
  rw [applyEncoded, h]
  rfl

theorem applyEncoded_of_error {b : Bytes} {reason : Wire.DecodeError}
    (h : Command.decode b = .error reason) (s : State) : s.applyEncoded b = .error reason := by
  rw [applyEncoded, h]
  rfl

end ControlPlane.State
