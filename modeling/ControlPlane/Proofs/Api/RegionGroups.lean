import ControlPlane.Api
import ControlPlane.Proofs.Table.Apply
import ControlPlane.Proofs.Table.Form

/-!
# ControlPlane.Proofs.Api.RegionGroups

What a request for region groups makes of the map that it asks for.  The command is built by adding
one replica set after the other, so a storage group for which no replica set is asked leaves no
trace in it (`map_eq_occupied`); the storage groups with replica sets keep their order, and so do
the replica sets of each.  Such a command differs from the one with the map itself only where a
storage group without replica sets does not exist: the table would refuse it by name, and is not
asked about it.
-/

namespace ControlPlane

open Http
open Json (LawfulForm)

namespace RegionGroupMap

/-- The storage groups of a map that have replica sets, with these. -/
def occupied (m : RegionGroupMap) : RegionGroupMap :=
  ⟨m.entries.filter fun e => !e.2.isEmpty, m.ordered.filter _⟩

/-- A map has the storage groups with replica sets only, if no list in it is empty. -/
theorem occupied_eq_self_iff {m : RegionGroupMap} : m.occupied = m ↔ ∀ e ∈ m.entries, e.2 ≠ [] := by
  constructor
  · intro h e he
    rw [← h] at he
    simpa using (List.mem_filter.1 he).2
  · intro h
    refine SortedMap.ext (List.filter_eq_self.2 fun e he => ?_)
    simpa using h e he

/-- Lists that are empty add nothing to all replica sets. -/
theorem flatten_values_occupied (m : RegionGroupMap) :
    m.occupied.values.flatten = m.values.flatten := by
  simp only [SortedMap.values, occupied]
  induction m.entries with
  | nil => rfl
  | cons e rest ih => cases h : e.2 <;> simp [h, ih]

/-! ## adding one replica set after the other -/

/-- Further replica sets of the last storage group go behind those that it has. -/
theorem entries_foldl_add {m : RegionGroupMap} {before : List (String × List ReplicaSet)}
    {name : String} {sets : List ReplicaSet} (h : m.entries = before ++ [(name, sets)])
    (more : List ReplicaSet) :
    (more.foldl (fun m r => m.add name r) m).entries = before ++ [(name, sets ++ more)] := by
  induction more generalizing m sets with
  | nil => simpa using h
  | cons r more ih =>
      have hget : m.get? name = some sets := SortedMap.get?_eq_some_iff.2 (by simp [h])
      have hadd : (m.add name r).entries = before ++ [(name, sets ++ [r])] := by
        rw [add, hget]
        exact SortedMap.entries_insert_of_entries h _
      rw [List.foldl_cons, ih hadd]
      simp

/-- The replica sets of a storage group behind all others make an entry, unless there are none. -/
theorem entries_foldl_add_of_gt {m : RegionGroupMap} {name : String}
    (h : ∀ e ∈ m.entries, compare name e.1 = .gt) (sets : List ReplicaSet) :
    (sets.foldl (fun m r => m.add name r) m).entries
      = m.entries ++ [(name, sets)].filter fun e => !e.2.isEmpty := by
  cases sets with
  | nil => simp
  | cons r sets =>
      have hget : m.get? name = none := by
        cases hget : m.get? name with
        | none => rfl
        | some found => simpa using h _ (SortedMap.get?_eq_some_iff.1 hget)
      have hadd : (m.add name r).entries = m.entries ++ [(name, [r])] := by
        rw [add, hget]
        exact SortedMap.insertEntry_of_gt h
      rw [List.foldl_cons, entries_foldl_add hadd]
      simp

/-- Storage groups in order, added behind those of a map, leave the entries that have replica
sets. -/
theorem entries_foldl_flatMap (l : List (String × List ReplicaSet)) (m : RegionGroupMap)
    (h : (m.entries ++ l).Pairwise fun a b => compare a.1 b.1 = .lt) :
    ((l.flatMap fun e => e.2.map (e.1, ·)).foldl (fun m p => RegionGroupMap.add m p.1 p.2)
        m).entries
      = m.entries ++ l.filter fun e => !e.2.isEmpty := by
  induction l generalizing m with
  | nil => simp
  | cons e l ih =>
      have hgt : ∀ a ∈ m.entries, compare e.1 a.1 = .gt := fun a ha =>
        Std.OrientedCmp.gt_iff_lt.2 ((List.pairwise_append.1 h).2.2 a ha e List.mem_cons_self)
      have hone := entries_foldl_add_of_gt hgt e.2
      have hordered : (m.entries ++ [e].filter (fun e => !e.2.isEmpty) ++ l).Pairwise
          fun a b => compare a.1 b.1 = .lt := by
        refine h.sublist ?_
        rw [List.append_assoc]
        exact (List.filter_sublist.append_right l).append_left m.entries
      rw [List.flatMap_cons, List.foldl_append, List.foldl_map, ih _ (by rw [hone]; exact hordered),
        hone, List.append_assoc, ← List.filter_append, List.singleton_append]

end RegionGroupMap

/-! ## what the table makes of it -/

namespace Table

theorem appendRegionGroups_nil (groups : SortedMap String StorageGroupPartition) (name : String) :
    appendRegionGroups groups (name, []) = groups := by
  rw [appendRegionGroups]
  cases h : groups.get? name with
  | none => rfl
  | some p => simp [SortedMap.insert_of_get?_eq_some h]

/-- Storage groups without replica sets pass the check, if they exist. -/
theorem allocateAll_filter {t : Table} {l : List (String × List ReplicaSet)}
    (h : ∀ e ∈ l, e.2 = [] → t.storageGroups.contains e.1 = true) (taken : List GroupId) :
    t.allocateAll taken (l.filter fun e => !e.2.isEmpty) = t.allocateAll taken l := by
  induction l generalizing taken with
  | nil => rfl
  | cons e l ih =>
      obtain ⟨name, sets⟩ := e
      have hl := ih fun e he => h e (List.mem_cons_of_mem _ he)
      cases sets with
      | nil =>
          have hname : t.storageGroups.contains name = true := h (name, []) List.mem_cons_self rfl
          rw [List.filter_cons_of_neg (by simp), hl, allocateAll, if_pos hname, allocate]
          rfl
      | cons r sets =>
          rw [List.filter_cons_of_pos (by simp), allocateAll, allocateAll]
          simp only [hl]

theorem foldl_appendRegionGroups_filter (l : List (String × List ReplicaSet))
    (groups : SortedMap String StorageGroupPartition) :
    (l.filter fun e => !e.2.isEmpty).foldl appendRegionGroups groups
      = l.foldl appendRegionGroups groups := by
  induction l generalizing groups with
  | nil => rfl
  | cons e l ih =>
      obtain ⟨name, sets⟩ := e
      cases sets with
      | nil => rw [List.filter_cons_of_neg (by simp), ih, List.foldl_cons, appendRegionGroups_nil]
      | cons r sets => rw [List.filter_cons_of_pos (by simp), List.foldl_cons, ih, List.foldl_cons]

/-- The table answers as to the map itself, if the storage groups without replica sets exist. -/
theorem createRegionGroups_occupied {t : Table} {m : RegionGroupMap}
    (h : ∀ e ∈ m.entries, e.2 = [] → t.storageGroups.contains e.1 = true) :
    t.createRegionGroups m.occupied = t.createRegionGroups m := by
  rw [createRegionGroups, createRegionGroups]
  simp only [RegionGroupMap.occupied, allocateAll_filter h, foldl_appendRegionGroups_filter]

/-- The table refuses replica sets for a storage group that does not exist. -/
theorem exists_createRegionGroups_occupied_eq_error {t : Table} {m : RegionGroupMap}
    {e : String × List ReplicaSet} (he : e ∈ m.entries) (hsets : e.2 ≠ [])
    (hname : t.storageGroups.contains e.1 = false) :
    ∃ reason, t.createRegionGroups m.occupied = .error reason := by
  cases h : t.createRegionGroups m.occupied with
  | error reason => exact ⟨reason, rfl⟩
  | ok t' =>
      have hmem : e ∈ m.occupied.entries := List.mem_filter.2 ⟨he, by simpa using hsets⟩
      have hcontains := (createRegionGroups_eq_ok_iff.1 h).1 e hmem
      rw [hname] at hcontains
      cases hcontains

end Table

/-! ## requests -/

namespace Api

instance : LawfulForm RegionGroupsRequest where
  ofJson?_toJson r := by
    show (do return RegionGroupsRequest.mk (← Json.ofJson? (Json.toJson r.regionGroups))) = some r
    simp
  reads _ := Json.Reads.record (by decide) (.cons (Json.reads _) .nil)

/-- **The map of the command**: the storage groups that are asked to get replica sets, in order. -/
theorem RegionGroupsRequest.map_eq_occupied (r : RegionGroupsRequest) :
    r.map = RegionGroupMap.occupied r.regionGroups := by
  apply SortedMap.ext
  have h := RegionGroupMap.entries_foldl_flatMap r.regionGroups.entries SortedMap.empty
    (by simpa using r.regionGroups.ordered)
  rw [SortedMap.entries_empty, List.nil_append] at h
  exact h

/-- A body that says what it is, and is not too long, is read. -/
theorem readBody_write {α : Type} [Json.Form α] [LawfulForm α] {r : Request} {a : α}
    (htype : r.contentType.any MediaType.isJson = true) (hbody : r.body = Json.writeBytes a)
    (hlength : r.body.length ≤ maxBodyBytes) : readBody α r = .ok a := by
  rw [readBody, htype, if_neg (by simp), if_neg (Nat.not_lt.2 hlength), hbody,
    Json.parseFront_writeBytes]

/-- **A request for region groups** submits the map that it asks for without the storage groups that
have no replica set in it, and its answer counts what is left.  Nothing is left out if no list in
the map is empty.  Where all storage groups that are left out exist, the table answers as to the
whole map, and it refuses any replica set for a storage group that does not exist. -/
theorem call_regionGroups {r : Request} {q : RegionGroupsRequest} (hmethod : r.method = "POST")
    (hpath : pathOf r.target = "/region-groups".toList)
    (hbody : readBody RegionGroupsRequest r = .ok q) :
    call r = .ok (.submit (.createRegionGroups (RegionGroupMap.occupied q.regionGroups))
        (.record [("storage_groups", .int (RegionGroupMap.occupied q.regionGroups).size),
          ("region_groups", .int q.regionGroups.values.flatten.length)]))
      ∧ (RegionGroupMap.occupied q.regionGroups = q.regionGroups
        ↔ ∀ e ∈ q.regionGroups.entries, e.2 ≠ [])
      ∧ (∀ t : Table,
        (∀ e ∈ q.regionGroups.entries, e.2 = [] → t.storageGroups.contains e.1 = true) →
          t.apply (.createRegionGroups (RegionGroupMap.occupied q.regionGroups))
            = t.apply (.createRegionGroups q.regionGroups))
      ∧ ∀ t : Table, ∀ e ∈ q.regionGroups.entries, e.2 ≠ [] →
        t.storageGroups.contains e.1 = false →
          ∃ reason,
            t.apply (.createRegionGroups (RegionGroupMap.occupied q.regionGroups))
              = .error reason := by
  refine ⟨?_, RegionGroupMap.occupied_eq_self_iff, fun t => Table.createRegionGroups_occupied,
    fun t e he => Table.exists_createRegionGroups_occupied_eq_error he⟩
  have hroute : Route.ofPath? (pathOf r.target) = some .regionGroups := by
    rw [hpath]
    rfl
  have hallowed : r.method ∈ Route.regionGroups.methods := by
    rw [hmethod]
    exact List.mem_singleton.2 rfl
  rw [call, hroute]
  simp only [if_pos hallowed, Route.call, hbody]
  rw [← RegionGroupMap.flatten_values_occupied, ← RegionGroupsRequest.map_eq_occupied]
  rfl

/-- The request of a client for region groups. -/
def postRegionGroups (q : RegionGroupsRequest) : Request :=
  ⟨"POST", "/region-groups", some "application/json", Json.writeBytes q⟩

/-- A replica set without replicas. -/
def bareSet : ReplicaSet := ⟨⟨.dataRegion, 7⟩, []⟩

/-- Of two storage groups the one without replica sets is left out. -/
theorem call_regionGroups_oneOfTwo :
    call (postRegionGroups ⟨SortedMap.ofList [("x", []), ("y", [bareSet])]⟩)
      = .ok (.submit (.createRegionGroups (SortedMap.ofList [("y", [bareSet])]))
          (.record [("storage_groups", .int 1), ("region_groups", .int 1)])) :=
  (call_regionGroups (q := ⟨SortedMap.ofList [("x", []), ("y", [bareSet])]⟩) rfl rfl
    (readBody_write (by decide) rfl (by decide +kernel))).1

/-- The map of a command may differ from the one that was asked for: of a storage group without
replica sets nothing is left, so a table in which it does not exist accepts the command, and would
refuse the map. -/
theorem map_ne_regionGroups :
    ∃ q : RegionGroupsRequest, readBody RegionGroupsRequest (postRegionGroups q) = .ok q
      ∧ q.map ≠ q.regionGroups
      ∧ Table.empty.apply (.createRegionGroups q.map) = .ok Table.empty
      ∧ Table.empty.apply (.createRegionGroups q.regionGroups)
        = .error (.storageGroupNotFound "x") :=
  ⟨⟨SortedMap.ofList [("x", [])]⟩, readBody_write (by decide) rfl (by decide), by decide,
    by decide, by decide⟩

end Api

end ControlPlane
