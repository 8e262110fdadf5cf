import ControlPlane.Proofs.Table.Creation

/-!
# ControlPlane.Proofs.Table.Independence

Commands that commute.  The verdict on a command depends on little of the table: on the data node
that it registers, on whether the storage groups that it mentions exist, and on whether the ids that
it creates are taken (`Alike.verdict_eq`).  A command that changes nothing of that for another one
leaves its verdict as it is (`Independent.alike`), and what the two do to the table does not depend
on which comes first, because no part of the table is changed by both (`groupBehind_comm`,
`nodeBehind_comm`).
-/

namespace ControlPlane.Table

variable {t t' : Table} {a b c : Command} {location : Location} {reason : Rejection}

/-! ## what a verdict depends on -/

/-- The data node is known at another location. -/
def Conflicts (t : Table) (location : Location) : Prop :=
  ∃ known, t.dataNode? location.dataNodeId = some known ∧ known ≠ location

theorem registerDataNode_eq_error_iff :
    t.registerDataNode location = .error reason
      ↔ t.Conflicts location ∧ reason = .dataNodeConflict location.dataNodeId := by
  rw [registerDataNode, Conflicts, dataNode?]
  cases t.dataNodes.get? location.dataNodeId with
  | none => simp
  | some known => by_cases heq : known = location <;> simp [heq, eq_comm (a := reason)]

/-- Tables in which a command finds the same. -/
structure Alike (t t' : Table) (c : Command) : Prop where
  conflicts : ∀ location, c = .registerDataNode location →
    (t.Conflicts location ↔ t'.Conflicts location)
  groups : ∀ name ∈ c.names, t.storageGroups.contains name = t'.storageGroups.contains name
  ids : ∀ id ∈ c.regionIds, id ∈ t.regionIds ↔ id ∈ t'.regionIds

theorem Alike.refl (t : Table) (c : Command) : Alike t t c :=
  ⟨fun _ _ => .rfl, fun _ _ => rfl, fun _ _ => .rfl⟩

theorem name_mem_of_positions {groups : RegionGroupMap} {name : String}
    (h : .storageGroup name ∈ positions groups.entries) : name ∈ groups.keys := by
  obtain ⟨e, he, hmem⟩ := List.mem_flatMap.1 h
  rcases List.mem_cons.1 hmem with heq | hregion
  · cases heq
    exact List.mem_map_of_mem he
  · obtain ⟨r, -, heq⟩ := List.mem_map.1 hregion
    cases heq

theorem id_mem_of_positions {l : List (String × List ReplicaSet)} {name : String} {id : GroupId}
    (h : .regionGroup name id ∈ positions l) : id ∈ newIds l := by
  obtain ⟨e, he, hmem⟩ := List.mem_flatMap.1 h
  rcases List.mem_cons.1 hmem with heq | hregion
  · cases heq
  · obtain ⟨r, hr, heq⟩ := List.mem_map.1 hregion
    cases heq
    exact List.mem_map_of_mem (List.mem_flatMap.2 ⟨e, he, hr⟩)

/-- **The verdict** is the same on tables in which the command finds the same. -/
theorem Alike.verdict_eq (h : Alike t t' c) : t.verdict c = t'.verdict c := by
  cases c with
  | registerDataNode location =>
      refine verdict_eq_iff.2 fun reason => ?_
      simp only [apply, registerDataNode_eq_error_iff, h.conflicts location rfl]
  | setStorageGroup schema =>
      have hname := h.groups schema.name (List.mem_singleton.2 rfl)
      simp only [verdict, apply, setStorageGroup, hname]
      split
      · rfl
      · split
        · rfl
        · split <;> rfl
  | deleteStorageGroup name =>
      have hname := h.groups name (List.mem_singleton.2 rfl)
      simp only [verdict, apply, deleteStorageGroup, hname]
      split <;> rfl
  | createRegionGroups groups =>
      refine verdict_eq_iff.2 fun reason => ?_
      simp only [apply, createRegionGroups_eq_error_iff]
      exact firstFault_congr (fun name hname => h.groups name (name_mem_of_positions hname))
        fun _ id hid => h.ids id (id_mem_of_positions hid)

/-! ## independent commands -/

/-- Commands that do not meddle with each other on this table: they mention different storage groups
and create different ids, neither deletes a storage group that has an id which the other one
creates, and if both register a data node, it is not the same one at different locations. -/
structure Independent (t : Table) (a b : Command) : Prop where
  names : a.names.Disjoint b.names
  regionIds : a.regionIds.Disjoint b.regionIds
  freedByFirst : ∀ name, a = .deleteStorageGroup name → b.regionIds.Disjoint (t.regionIdsOf name)
  freedBySecond : ∀ name, b = .deleteStorageGroup name → a.regionIds.Disjoint (t.regionIdsOf name)
  locations : ∀ l m, a = .registerDataNode l → b = .registerDataNode m →
    l.dataNodeId ≠ m.dataNodeId ∨ l = m

namespace Independent

theorem symm (h : Independent t a b) : Independent t b a where
  names := List.disjoint_symm h.names
  regionIds := List.disjoint_symm h.regionIds
  freedByFirst := h.freedBySecond
  freedBySecond := h.freedByFirst
  locations l m hl hm := (h.locations m l hm hl).imp Ne.symm Eq.symm

/-- Behind an independent command that is accepted, a data node is in conflict if it was before. -/
theorem conflicts_iff (h : Independent t a b) (ha : t.apply a = .ok t')
    (hb : b = .registerDataNode location) : t.Conflicts location ↔ t'.Conflicts location := by
  rw [Conflicts, Conflicts, dataNode?_eq_of_apply ha]
  cases a with
  | registerDataNode first =>
      rw [nodeBehind]
      rcases h.locations first location rfl hb with hne | rfl
      · rw [if_neg (Ne.symm hne)]
      · rcases registerDataNode_eq_ok_iff.1 ha with ⟨hnone, -⟩ | ⟨hknown, -⟩
        · simp [dataNode?, hnone]
        · simp [dataNode?, hknown]
  | setStorageGroup schema => rfl
  | deleteStorageGroup name => rfl
  | createRegionGroups groups => rfl

/-- **Behind an independent command** a command finds the same as before. -/
theorem alike (h : Independent t a b) : Alike t (t.next a) b := by
  cases ha : t.apply a with
  | error reason =>
      rw [next_of_error ha]
      exact .refl t b
  | ok t' =>
      rw [next_of_ok ha]
      refine ⟨fun location hb => h.conflicts_iff ha hb, fun name hname => ?_, fun id hid => ?_⟩
      · have hsame := storageGroup?_of_apply ha name
        rw [groupBehind_of_not_mem fun hmem => h.names hmem hname] at hsame
        exact (congrArg Option.isSome hsame).symm
      · exact (mem_regionIds_of_apply ha (fun hmem => h.regionIds hmem hid)
          fun gone hgone hmem => h.freedByFirst gone hgone hid hmem).symm

theorem verdict_next (h : Independent t a b) : (t.next a).verdict b = t.verdict b :=
  h.alike.verdict_eq.symm

end Independent

/-! ## both orders -/

/-- What two commands make of a storage group does not depend on their order, because one of them
leaves it alone. -/
theorem groupBehind_comm (h : a.names.Disjoint b.names) (name : String)
    (old : Option StorageGroupPartition) :
    groupBehind name (groupBehind name old a) b = groupBehind name (groupBehind name old b) a := by
  by_cases hname : name ∈ a.names
  · have hother : name ∉ b.names := fun hmem => h hname hmem
    rw [groupBehind_of_not_mem hother, groupBehind_of_not_mem hother]
  · rw [groupBehind_of_not_mem hname, groupBehind_of_not_mem hname]

theorem nodeBehind_comm
    (h : ∀ l m, a = .registerDataNode l → b = .registerDataNode m →
      l.dataNodeId ≠ m.dataNodeId ∨ l = m) (id : Int32) (old : Option Location) :
    nodeBehind id (nodeBehind id old a) b = nodeBehind id (nodeBehind id old b) a := by
  cases a with
  | registerDataNode l =>
      cases b with
      | registerDataNode m =>
          rcases h l m rfl rfl with hne | rfl
          · simp only [nodeBehind]
            split
            · next hm => rw [if_neg fun hl => hne (hl.symm.trans hm)]
            · rfl
          · rfl
      | _ => rfl
  | _ => rfl

/-- Two commands that are accepted in both orders come to the same table. -/
theorem eq_of_apply_apply {ta tb tab tba : Table} (h : Independent t a b)
    (ha : t.apply a = .ok ta) (hab : ta.apply b = .ok tab)
    (hb : t.apply b = .ok tb) (hba : tb.apply a = .ok tba) : tab = tba := by
  refine ext_lookup (fun id => ?_) fun name => ?_
  · rw [dataNode?_eq_of_apply hab, dataNode?_eq_of_apply ha, dataNode?_eq_of_apply hba,
      dataNode?_eq_of_apply hb, nodeBehind_comm h.locations]
  · rw [storageGroup?_of_apply hab, storageGroup?_of_apply ha, storageGroup?_of_apply hba,
      storageGroup?_of_apply hb, groupBehind_comm h.names]

/-- **Independent commands commute**: whichever comes first, the table behind both is the same, and
each of them is accepted, or refused for the same reason, as if the other one were not there. -/
theorem independent_commute (h : Independent t a b) :
    (t.next a).next b = (t.next b).next a ∧
      (t.next a).verdict b = t.verdict b ∧ (t.next b).verdict a = t.verdict a := by
  have hb := h.verdict_next
  have ha := h.symm.verdict_next
  refine ⟨?_, hb, ha⟩
  -- A command that is refused is refused in both orders, and changes nothing in either.
  cases happlyA : t.apply a with
  | error reason =>
      rw [verdict_eq_error_iff.2 happlyA, verdict_eq_error_iff] at ha
      rw [next_of_error happlyA, next_of_error ha]
  | ok ta =>
      cases happlyB : t.apply b with
      | error reason =>
          rw [verdict_eq_error_iff.2 happlyB, verdict_eq_error_iff] at hb
          rw [next_of_error happlyB, next_of_error hb]
      | ok tb =>
          rw [verdict_of_ok happlyB, next_of_ok happlyA, verdict_eq_ok_iff] at hb
          rw [verdict_of_ok happlyA, next_of_ok happlyB, verdict_eq_ok_iff] at ha
          rw [next_of_ok happlyA, next_of_ok happlyB]
          exact eq_of_apply_apply h happlyA hb happlyB ha

/-- A storage group gains a region group with the id of one that another storage group has. -/
def reuse : Command := .createRegionGroups (SortedMap.ofList [("g", [bareRegion 5])])

/-- A storage group gains a region group with an id of its own. -/
def extension : Command := .createRegionGroups (SortedMap.ofList [("g", [bareRegion 1])])

theorem independent_commute_deletion :
    Independent uneven (.deleteStorageGroup "h") extension ∧
      (uneven.next (.deleteStorageGroup "h")).next extension
        = (uneven.next extension).next (.deleteStorageGroup "h") ∧
      (uneven.next (.deleteStorageGroup "h")).verdict extension = uneven.verdict extension ∧
      uneven.verdict extension = .ok () := by
  have h : Independent uneven (.deleteStorageGroup "h") extension :=
    { names := List.disjoint_left.2 (by decide)
      regionIds := List.disjoint_left.2 (by decide)
      freedByFirst := by rintro name ⟨⟩; exact List.disjoint_left.2 (by decide)
      freedBySecond := by rintro name ⟨⟩
      locations := by rintro l m ⟨⟩ }
  obtain ⟨hnext, hverdict, -⟩ := independent_commute h
  exact ⟨h, hnext, hverdict, by decide⟩

/-- Behind the deletion of the storage group that has it, an id can be created elsewhere. -/
example : (uneven.next (.deleteStorageGroup "h")).verdict reuse ≠ uneven.verdict reuse := by decide

end ControlPlane.Table
