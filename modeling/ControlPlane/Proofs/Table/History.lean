import ControlPlane.Proofs.Table.Apply
import Mathlib.Data.Nat.Init

/-!
# ControlPlane.Proofs.Table.History

What a run of commands may never do to the table.  A command touches one part of the table only:
data nodes come (`dataNode?_eq_of_apply`) and stay as they are (`dataNode?_next`), and a storage
group comes without region groups, gains some at the end, and goes when it is deleted by its name
(`storageGroup?_of_apply`).
Along a run this means that nothing is rewritten (`dataNode?_behind`, `grows_behind`).
-/

namespace ControlPlane

/-! ## growing -/

/-- A storage group may gain region groups, behind those that it has.  Nothing else of it
changes. -/
structure StorageGroupPartition.Grows (p q : StorageGroupPartition) : Prop where
  schema : q.schema = p.schema
  regionGroups : p.regionGroups <+: q.regionGroups

namespace StorageGroupPartition.Grows

variable {p q r : StorageGroupPartition}

theorem refl (p : StorageGroupPartition) : p.Grows p := ⟨rfl, List.prefix_rfl⟩

theorem trans (hpq : p.Grows q) (hqr : q.Grows r) : p.Grows r :=
  ⟨hqr.schema.trans hpq.schema, hpq.regionGroups.trans hqr.regionGroups⟩

end StorageGroupPartition.Grows

namespace Table

variable {t t' : Table} {c : Command} {name : String} {p q : StorageGroupPartition}

/-! ## one accepted command -/

/-- What becomes of a storage group, or of its absence, when a command is accepted. -/
def groupBehind (name : String) (old : Option StorageGroupPartition) :
    Command → Option StorageGroupPartition
  | .registerDataNode _ => old
  | .setStorageGroup schema => if name = schema.name then some ⟨schema, []⟩ else old
  | .deleteStorageGroup gone => if name = gone then none else old
  | .createRegionGroups groups =>
    old.map fun p => { p with regionGroups := p.regionGroups ++ newGroups groups.entries name }

/-- **An accepted command** does to a storage group what its kind says, and nothing to others. -/
theorem storageGroup?_of_apply (h : t.apply c = .ok t') (name : String) :
    t'.storageGroup? name = groupBehind name (t.storageGroup? name) c := by
  cases c with
  | registerDataNode location =>
      rcases registerDataNode_eq_ok_iff.1 h with ⟨-, rfl⟩ | ⟨-, rfl⟩ <;> rfl
  | setStorageGroup schema =>
      obtain ⟨-, -, -, -, rfl⟩ := setStorageGroup_eq_ok_iff.1 h
      simp [storageGroup?, groupBehind]
  | deleteStorageGroup gone =>
      obtain ⟨-, rfl⟩ := deleteStorageGroup_eq_ok_iff.1 h
      by_cases hname : name = gone
      · simp [storageGroup?, groupBehind, hname]
      · simp [storageGroup?, groupBehind, hname, Ne.symm hname]
  | createRegionGroups groups =>
      obtain ⟨-, -, -, rfl⟩ := createRegionGroups_eq_ok_iff.1 h
      exact get?_foldl_appendRegionGroups groups.entries t.storageGroups name

/-- What becomes of a data node, or of its absence, when a command is accepted. -/
def nodeBehind (id : Int32) (old : Option Location) : Command → Option Location
  | .registerDataNode location => if id = location.dataNodeId then some location else old
  | _ => old

/-- **An accepted command** changes no data node but the one that it registers. -/
theorem dataNode?_eq_of_apply (h : t.apply c = .ok t') (id : Int32) :
    t'.dataNode? id = nodeBehind id (t.dataNode? id) c := by
  cases c with
  | registerDataNode location =>
      rcases registerDataNode_eq_ok_iff.1 h with ⟨-, rfl⟩ | ⟨hknown, rfl⟩
      · simp [dataNode?, nodeBehind]
      · rw [nodeBehind]
        split
        · next hid => rw [hid, dataNode?, hknown]
        · rfl
  | setStorageGroup schema =>
      obtain ⟨-, -, -, -, rfl⟩ := setStorageGroup_eq_ok_iff.1 h
      rfl
  | deleteStorageGroup gone =>
      obtain ⟨-, rfl⟩ := deleteStorageGroup_eq_ok_iff.1 h
      rfl
  | createRegionGroups groups =>
      obtain ⟨-, -, -, rfl⟩ := createRegionGroups_eq_ok_iff.1 h
      rfl

/-- An accepted command leaves the data nodes that are there. -/
theorem dataNode?_of_apply (h : t.apply c = .ok t') {id : Int32} {location : Location}
    (hnode : t.dataNode? id = some location) : t'.dataNode? id = some location := by
  rw [dataNode?_eq_of_apply h, hnode]
  cases c with
  | registerDataNode new =>
      rw [nodeBehind]
      split
      · next hid =>
          rw [hid, dataNode?] at hnode
          rcases registerDataNode_eq_ok_iff.1 h with ⟨hfree, -⟩ | ⟨hknown, -⟩
          · rw [hfree] at hnode
            cases hnode
          · rw [← hknown, hnode]
      · rfl
  | setStorageGroup schema => rfl
  | deleteStorageGroup gone => rfl
  | createRegionGroups groups => rfl

/-- A storage group that is set was not there. -/
theorem storageGroup?_of_apply_set {schema : StorageGroupSchema}
    (h : t.apply (.setStorageGroup schema) = .ok t') : t.storageGroup? schema.name = none :=
  (setStorageGroup_eq_ok_iff.1 h).2.2.2.1

/-! ## one command, accepted or not -/

/-- A command that changes the table was accepted. -/
theorem apply_of_next_ne (h : t.next c ≠ t) : t.apply c = .ok (t.next c) := by
  rw [next] at h ⊢
  cases happly : t.apply c with
  | ok t' => rfl
  | error reason =>
      rw [happly] at h
      exact absurd rfl h

/-- Data nodes stay where they are. -/
theorem dataNode?_next (c : Command) {id : Int32} {location : Location}
    (hnode : t.dataNode? id = some location) : (t.next c).dataNode? id = some location := by
  by_cases h : t.next c = t
  · rwa [h]
  · exact dataNode?_of_apply (apply_of_next_ne h) hnode

/-- A storage group that stays grows. -/
theorem grows_next (hp : t.storageGroup? name = some p)
    (hq : (t.next c).storageGroup? name = some q) : p.Grows q := by
  by_cases h : t.next c = t
  · rw [h, hp, Option.some.injEq] at hq
    exact hq ▸ .refl p
  · have happly := apply_of_next_ne h
    rw [storageGroup?_of_apply happly, hp] at hq
    cases c with
    | registerDataNode location =>
        cases hq
        exact .refl p
    | setStorageGroup schema =>
        have hne : name ≠ schema.name := by
          rintro rfl
          rw [storageGroup?_of_apply_set happly] at hp
          cases hp
        rw [groupBehind, if_neg hne] at hq
        cases hq
        exact .refl p
    | deleteStorageGroup gone =>
        rw [groupBehind] at hq
        split at hq
        · cases hq
        · cases hq
          exact .refl p
    | createRegionGroups groups =>
        cases hq
        exact ⟨rfl, List.prefix_append _ _⟩

/-- A storage group goes just when it is deleted by its name. -/
theorem storageGroup?_next_eq_none_iff (hp : t.storageGroup? name = some p) :
    (t.next c).storageGroup? name = none
      ↔ c = .deleteStorageGroup name ∧ t.apply c = .ok (t.next c) := by
  constructor
  · intro hnone
    have happly : t.apply c = .ok (t.next c) := apply_of_next_ne fun h => by
      rw [h, hp] at hnone
      cases hnone
    refine ⟨?_, happly⟩
    rw [storageGroup?_of_apply happly, hp] at hnone
    cases c with
    | registerDataNode location => cases hnone
    | setStorageGroup schema =>
        rw [groupBehind] at hnone
        split at hnone <;> cases hnone
    | deleteStorageGroup gone =>
        rw [groupBehind] at hnone
        split at hnone
        · next hname => rw [hname]
        · cases hnone
    | createRegionGroups groups => cases hnone
  · rintro ⟨rfl, happly⟩
    rw [storageGroup?_of_apply happly, groupBehind, if_pos rfl]

/-- A storage group comes when it is set, with that schema and without region groups. -/
theorem exists_set_of_next (hnone : t.storageGroup? name = none)
    (hp : (t.next c).storageGroup? name = some p) :
    ∃ schema, c = .setStorageGroup schema ∧ t.apply c = .ok (t.next c) ∧ schema.name = name ∧
      p = ⟨schema, []⟩ := by
  have happly : t.apply c = .ok (t.next c) := apply_of_next_ne fun h => by
    rw [h, hnone] at hp
    cases hp
  rw [storageGroup?_of_apply happly, hnone] at hp
  cases c with
  | registerDataNode location => cases hp
  | setStorageGroup schema =>
      rw [groupBehind] at hp
      split at hp
      · next hname =>
          cases hp
          exact ⟨schema, rfl, happly, hname.symm, rfl⟩
      · cases hp
  | deleteStorageGroup gone =>
      rw [groupBehind] at hp
      split at hp <;> cases hp
  | createRegionGroups groups => cases hp

/-! ## runs -/

/-- The table behind the first so many commands of a run, each of which is accepted or not. -/
def behind (t : Table) (cs : List Command) (i : Nat) : Table := (cs.take i).foldl next t

theorem behind_succ (t : Table) {cs : List Command} {i : Nat} {c : Command}
    (h : cs[i]? = some c) : t.behind cs (i + 1) = (t.behind cs i).next c := by
  rw [behind, List.take_add_one, h, Option.toList_some, List.foldl_append]
  rfl

/-- Behind its last command a run stands still. -/
theorem behind_succ_of_none (t : Table) {cs : List Command} {i : Nat} (h : cs[i]? = none) :
    t.behind cs (i + 1) = t.behind cs i := by
  rw [behind, List.take_add_one, h, Option.toList_none, List.append_nil]
  rfl

/-- **Along a run**, data nodes stay where they are. -/
theorem dataNode?_behind (cs : List Command) {i j : Nat} (hij : i ≤ j) {id : Int32}
    {location : Location} (hnode : (t.behind cs i).dataNode? id = some location) :
    (t.behind cs j).dataNode? id = some location := by
  induction j, hij using Nat.le_induction with
  | base => exact hnode
  | succ j hij ih =>
      cases hc : cs[j]? with
      | none => rwa [behind_succ_of_none t hc]
      | some c =>
          rw [behind_succ t hc]
          exact dataNode?_next c ih

/-- **Along a run**, a storage group that is there all the time grows. -/
theorem grows_behind (cs : List Command) {i j : Nat} (hij : i ≤ j)
    (hp : (t.behind cs i).storageGroup? name = some p)
    (hstays : ∀ k, i ≤ k → k ≤ j → (t.behind cs k).storageGroup? name ≠ none) :
    ∃ q, (t.behind cs j).storageGroup? name = some q ∧ p.Grows q := by
  induction j, hij using Nat.le_induction with
  | base => exact ⟨p, hp, .refl p⟩
  | succ j hij ih =>
      obtain ⟨q, hq, hgrows⟩ := ih fun k hik hkj => hstays k hik (by omega)
      cases hc : cs[j]? with
      | none => exact ⟨q, by rwa [behind_succ_of_none t hc], hgrows⟩
      | some c =>
          obtain ⟨r, hr⟩ := Option.ne_none_iff_exists'.1 (hstays (j + 1) (by omega) (by omega))
          refine ⟨r, hr, hgrows.trans (grows_next (c := c) hq ?_)⟩
          rwa [← behind_succ t hc]

/-- **Nothing is rewritten.**  Whatever table a run begins with, and whichever commands it applies,
accepted or not: a data node keeps its location; a storage group that is there all the time keeps
its schema, and its region groups so far stay the first ones; it goes just when a command that is
accepted deletes it by its name; and one that comes, also one that was there before, has the schema
that an accepted command sets, and no region groups. -/
theorem never_rewritten (t : Table) (cs : List Command) :
    (∀ i j id location, i ≤ j → (t.behind cs i).dataNode? id = some location →
      (t.behind cs j).dataNode? id = some location) ∧
    (∀ i j name p, i ≤ j → (t.behind cs i).storageGroup? name = some p →
      (∀ k, i ≤ k → k ≤ j → (t.behind cs k).storageGroup? name ≠ none) →
      ∃ q, (t.behind cs j).storageGroup? name = some q ∧ q.schema = p.schema ∧
        p.regionGroups <+: q.regionGroups) ∧
    (∀ i name p, (t.behind cs i).storageGroup? name = some p →
      ((t.behind cs (i + 1)).storageGroup? name = none
        ↔ cs[i]? = some (.deleteStorageGroup name) ∧
          (t.behind cs i).apply (.deleteStorageGroup name) = .ok (t.behind cs (i + 1)))) ∧
    (∀ i name p, (t.behind cs i).storageGroup? name = none →
      (t.behind cs (i + 1)).storageGroup? name = some p →
      ∃ schema, cs[i]? = some (.setStorageGroup schema) ∧
        (t.behind cs i).apply (.setStorageGroup schema) = .ok (t.behind cs (i + 1)) ∧
        schema.name = name ∧ p = ⟨schema, []⟩) := by
  refine ⟨fun i j id location hij => dataNode?_behind cs hij, fun i j name p hij hp hstays => ?_,
    fun i name p hp => ?_, fun i name p hnone hp => ?_⟩
  · obtain ⟨q, hq, hgrows⟩ := grows_behind cs hij hp hstays
    exact ⟨q, hq, hgrows.schema, hgrows.regionGroups⟩
  · cases hc : cs[i]? with
    | none => simp [behind_succ_of_none t hc, hp]
    | some c =>
        rw [behind_succ t hc, storageGroup?_next_eq_none_iff hp, Option.some.injEq]
        exact and_congr_right fun h => by rw [h]
  · cases hc : cs[i]? with
    | none =>
        rw [behind_succ_of_none t hc, hnone] at hp
        cases hp
    | some c =>
        rw [behind_succ t hc] at hp ⊢
        obtain ⟨schema, rfl, happly, hname, hgroup⟩ := exists_set_of_next hnone hp
        exact ⟨schema, rfl, happly, hname, hgroup⟩

/-- A region group without replicas. -/
def bareRegion (id : Int32) : ReplicaSet := ⟨⟨.dataRegion, id⟩, []⟩

/-- A table with a data node that is not filed under its own id, and two storage groups. -/
def uneven : Table where
  dataNodes := SortedMap.ofList [(9, ⟨7, ⟨"h", 1⟩⟩)]
  storageGroups := SortedMap.ofList
    [("g", ⟨.ofName "g", [bareRegion 0]⟩), ("h", ⟨.ofName "h", [bareRegion 5]⟩)]

/-- A storage group is deleted and comes again with other settings, while another one gains region
groups; the first command is refused. -/
def turnover : List Command :=
  [.createRegionGroups (SortedMap.ofList [("g", [bareRegion 1]), ("h", [bareRegion 1])]),
    .createRegionGroups (SortedMap.ofList [("g", [bareRegion 1]), ("h", [bareRegion 2])]),
    .deleteStorageGroup "h",
    .setStorageGroup { StorageGroupSchema.ofName "h" with ttlMs := 5 },
    .createRegionGroups (SortedMap.ofList [("g", [bareRegion 5])])]

theorem never_rewritten_turnover :
    (uneven.behind turnover 5).dataNode? 9 = some ⟨7, ⟨"h", 1⟩⟩ ∧
      (∃ q, (uneven.behind turnover 5).storageGroup? "g" = some q ∧
        q.schema = .ofName "g" ∧ [bareRegion 0] <+: q.regionGroups) ∧
      turnover[2]? = some (.deleteStorageGroup "h") ∧
      ∃ schema, turnover[3]? = some (.setStorageGroup schema) ∧ schema.ttlMs = 5 ∧
        (uneven.behind turnover 4).storageGroup? "h" = some ⟨schema, []⟩ := by
  obtain ⟨hnode, hgroup, hgone, hcome⟩ := never_rewritten uneven turnover
  have hstays : ∀ k < 6, (uneven.behind turnover k).storageGroup? "g" ≠ none := by decide
  have hthere : (uneven.behind turnover 4).storageGroup? "h"
      = some ⟨{ StorageGroupSchema.ofName "h" with ttlMs := 5 }, []⟩ := by decide
  obtain ⟨schema, hset, -, -, hschema⟩ := hcome 3 "h" _ (by decide) hthere
  refine ⟨hnode 0 5 9 _ (by decide) (by decide),
    hgroup 0 5 "g" ⟨.ofName "g", [bareRegion 0]⟩ (by decide) (by decide)
      fun k _ hk => hstays k (by omega),
    ((hgone 2 "h" ⟨.ofName "h", [bareRegion 5, bareRegion 2]⟩ (by decide)).1 (by decide)).1,
    schema, hset, ?_, by rw [hthere, hschema]⟩
  rw [StorageGroupPartition.mk.injEq] at hschema
  rw [← hschema.1]

end Table

end ControlPlane
