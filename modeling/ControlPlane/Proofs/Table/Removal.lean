import ControlPlane.Proofs.Table.Effect

/-!
# ControlPlane.Proofs.Table.Removal

A storage group that is deleted leaves no trace.  While commands concern no other storage group, the
table is what it was when the storage group came, and this one storage group more (`Extends.next`);
all that they did is in it, so it goes with it (`Extends.apply_delete`).
-/

namespace ControlPlane

/-- Commands that set this storage group or create region groups in it, and concern no other. -/
def Command.Concerns (name : String) : Command → Prop
  | .setStorageGroup schema => schema.name = name
  | .createRegionGroups groups => ∀ key ∈ groups.keys, key = name
  | _ => False

namespace Table

variable {t t' : Table} {c : Command} {name : String}

/-- A table that has one storage group more than another one. -/
structure Extends (t : Table) (name : String) (t' : Table) : Prop where
  absent : t.storageGroup? name = none
  dataNodes : ∀ id, t'.dataNode? id = t.dataNode? id
  others : ∀ other, other ≠ name → t'.storageGroup? other = t.storageGroup? other
  there : ∃ p, t'.storageGroup? name = some p

/-- A storage group that is set is one more. -/
theorem extends_of_set {schema : StorageGroupSchema}
    (h : t.apply (.setStorageGroup schema) = .ok t') : Extends t schema.name t' where
  absent := storageGroup?_of_apply_set h
  dataNodes id := dataNode?_eq_of_apply h id
  others other hne := by rw [storageGroup?_of_apply h, groupBehind, if_neg hne]
  there := ⟨⟨schema, []⟩, by rw [storageGroup?_of_apply h, groupBehind, if_pos rfl]⟩

namespace Extends

/-- **One command** that concerns this storage group alone, accepted or not, leaves it the one that
there is more. -/
theorem next (h : Extends t name t') (hc : c.Concerns name) : Extends t name (t'.next c) := by
  cases happly : t'.apply c with
  | error reason => rwa [next_of_error happly]
  | ok t'' =>
      -- It registers no data node, mentions no other storage group, and does not delete this one.
      rw [next_of_ok happly]
      obtain ⟨p, hp⟩ := h.there
      refine ⟨h.absent, fun id => ?_, fun other hne => ?_, ?_⟩
      · rw [dataNode?_eq_of_apply happly, ← h.dataNodes id]
        cases c with
        | registerDataNode location => exact hc.elim
        | _ => rfl
      · rw [storageGroup?_of_apply happly, groupBehind_of_not_mem, h.others other hne]
        intro hmem
        cases c with
        | setStorageGroup schema => exact hne ((List.mem_singleton.1 hmem).trans hc)
        | createRegionGroups groups => exact hne (hc other hmem)
        | _ => exact hc
      · rw [storageGroup?_of_apply happly, hp]
        cases c with
        | setStorageGroup schema => exact ⟨⟨schema, []⟩, if_pos hc.symm⟩
        | createRegionGroups groups => exact ⟨_, rfl⟩
        | _ => exact hc.elim

/-- **A run** of such commands leaves it the one that there is more. -/
theorem foldl {cs : List Command} (hcs : ∀ c ∈ cs, c.Concerns name) (h : Extends t name t') :
    Extends t name (cs.foldl Table.next t') := by
  induction cs generalizing t' with
  | nil => exact h
  | cons c rest ih =>
      obtain ⟨hc, hrest⟩ := List.forall_mem_cons.1 hcs
      exact ih hrest (h.next hc)

/-- Without the storage group that there is more, the table is the other one. -/
theorem apply_delete (h : Extends t name t') : t'.apply (.deleteStorageGroup name) = .ok t := by
  obtain ⟨p, hp⟩ := h.there
  have hcontains : t'.storageGroups.contains name = true := Option.isSome_iff_exists.2 ⟨p, hp⟩
  have happly := deleteStorageGroup_eq_ok_iff.2 ⟨hcontains, rfl⟩
  refine happly.trans (congrArg Except.ok (ext_lookup h.dataNodes fun other => ?_))
  rw [storageGroup?_of_apply (c := .deleteStorageGroup name) happly, groupBehind]
  split
  · next heq => rw [heq, h.absent]
  · next hne => exact h.others other hne

/-- The ids that are taken in the smaller table are taken in the greater one. -/
theorem mem_regionIds (h : Extends t name t') {id : GroupId} (hid : id ∈ t.regionIds) :
    id ∈ t'.regionIds := by
  obtain ⟨other, p, hp, hmem⟩ := mem_regionIds_iff.1 hid |>.imp fun _ => mem_regionIdsOf_iff.1
  have hne : other ≠ name := by
    rintro rfl
    rw [h.absent] at hp
    cases hp
  exact mem_regionIds_iff.2
    ⟨other, mem_regionIdsOf_iff.2 ⟨p, (h.others other hne).trans hp, hmem⟩⟩

end Extends

/-- A region group with a free id can be created in any storage group. -/
theorem exists_create_one {id : GroupId} (hid : id ∉ t.regionIds) {p : StorageGroupPartition}
    (hp : t.storageGroup? name = some p) (locations : List Location) :
    ∃ t', t.apply (.createRegionGroups (RegionGroupMap.build [(name, ⟨id, locations⟩)]))
      = .ok t' := by
  refine exists_create_iff.2 ⟨fun key hkey => ?_, List.nodup_singleton id, fun id' hid' => ?_⟩
  · obtain rfl := List.mem_singleton.1 hkey
    exact ⟨p, hp⟩
  · obtain rfl := List.mem_singleton.1 hid'
    exact hid

/-- **A deletion leaves no trace.**  A storage group is set, then come commands, accepted or not,
that set it again or create region groups in no other, and then it is deleted: the deletion is
accepted, and the table is exactly what it was before.  Whatever region group was created in
between, one with its id can be created again in any storage group that there is. -/
theorem delete_leaves_no_trace {schema : StorageGroupSchema} {cs : List Command}
    (hset : t.apply (.setStorageGroup schema) = .ok t')
    (hcs : ∀ c ∈ cs, c.Concerns schema.name) :
    (cs.foldl Table.next t').apply (.deleteStorageGroup schema.name) = .ok t ∧
      ∀ i groups created, cs[i]? = some (.createRegionGroups groups) →
        (t'.behind cs i).apply (.createRegionGroups groups) = .ok created →
        ∀ id ∈ newIds groups.entries, ∀ name p, t.storageGroup? name = some p → ∀ locations,
          ∃ again, t.apply (.createRegionGroups (RegionGroupMap.build [(name, ⟨id, locations⟩)]))
            = .ok again := by
  have hextends := extends_of_set hset
  refine ⟨(hextends.foldl hcs).apply_delete,
    fun i groups created _ hcreated id hid name p hp locations => ?_⟩
  have hbehind : Extends t schema.name (t'.behind cs i) :=
    hextends.foldl fun c hc => hcs c (List.mem_of_mem_take hc)
  have hfree := (exists_create_iff.1 ⟨created, hcreated⟩).2.2 id hid
  exact exists_create_one (fun hmem => hfree (hbehind.mem_regionIds hmem)) hp locations

/-- A storage group gains region groups twice; in between one with an id of another storage group is
refused, and so is the storage group itself. -/
def guest : List Command :=
  [.createRegionGroups (SortedMap.ofList [("k", [bareRegion 1])]),
    .createRegionGroups (SortedMap.ofList [("k", [bareRegion 2, bareRegion 5])]),
    .setStorageGroup (.ofName "k"),
    .createRegionGroups (SortedMap.ofList [("k", [bareRegion 2])])]

theorem delete_leaves_no_trace_guest :
    uneven.apply (.setStorageGroup (.ofName "k"))
        = .ok (uneven.next (.setStorageGroup (.ofName "k"))) ∧
      (∀ c ∈ guest, c.Concerns "k") ∧
      (guest.foldl Table.next (uneven.next (.setStorageGroup (.ofName "k")))).apply
        (.deleteStorageGroup "k") = .ok uneven ∧
      ∃ again, uneven.apply (.createRegionGroups
        (RegionGroupMap.build [("g", ⟨⟨.dataRegion, 2⟩, []⟩)])) = .ok again := by
  have hset : uneven.apply (.setStorageGroup (.ofName "k"))
      = .ok (uneven.next (.setStorageGroup (.ofName "k"))) := rfl
  have hguest : ∀ c ∈ guest, c.Concerns "k" := by
    simp [guest, Command.Concerns, SortedMap.keys, SortedMap.ofList, SortedMap.insert,
      SortedMap.empty, SortedMap.insertEntry, StorageGroupSchema.ofName]
  obtain ⟨hdelete, hagain⟩ := delete_leaves_no_trace hset hguest
  exact ⟨hset, hguest, hdelete, hagain 3 _ _ rfl rfl ⟨.dataRegion, 2⟩ (by decide) "g" _ rfl []⟩

end Table

end ControlPlane
