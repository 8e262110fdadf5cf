import ControlPlane.Proofs.Table.Apply
import ControlPlane.Proofs.Table.Form
import Mathlib.Data.Finset.Card

/-!
# ControlPlane.Proofs.Table.WellFormed

Every table that a run can reach is well formed: data nodes and storage groups stand under their own
names, the settings of storage groups make sense, and no region group is there twice.  A run applies
commands, accepted or not, and goes back to states that it was in before, by way of their JSON.
-/

namespace ControlPlane

open Json (parseBytes writeBytes parseBytes_writeBytes)

namespace Table

/-- A table whose keys are those of its values, whose storage groups have names and replicas, and
whose region groups all have ids of their own. -/
structure WellFormed (t : Table) : Prop where
  dataNode : ∀ id location, t.dataNodes.get? id = some location → location.dataNodeId = id
  storageGroup : ∀ name p, t.storageGroups.get? name = some p →
    p.schema.name = name ∧ name ≠ "" ∧ 1 ≤ p.schema.schemaReplicationFactor
      ∧ 1 ≤ p.schema.dataReplicationFactor
  regionIds : t.regionIds.Nodup

theorem wellFormed_empty : empty.WellFormed where
  dataNode _ _ h := by simp [empty] at h
  storageGroup _ _ h := by simp [empty] at h
  regionIds := List.nodup_nil

/-! ## one command -/

namespace WellFormed

variable {t t' : Table}

theorem registerDataNode (ht : t.WellFormed) {location : Location}
    (h : t.registerDataNode location = .ok t') : t'.WellFormed := by
  rcases registerDataNode_eq_ok_iff.1 h with ⟨-, rfl⟩ | ⟨-, rfl⟩
  · refine ⟨fun id known hget => ?_, ht.storageGroup, ht.regionIds⟩
    by_cases hid : id = location.dataNodeId
    · simp only [hid, SortedMap.get?_insert, Std.ReflCmp.compare_self, if_true,
        Option.some.injEq] at hget
      rw [hid, hget]
    · exact ht.dataNode id known (by simpa [hid] using hget)
  · exact ht

theorem setStorageGroup (ht : t.WellFormed) {schema : StorageGroupSchema}
    (h : t.setStorageGroup schema = .ok t') : t'.WellFormed := by
  obtain ⟨hname, hschema, hdata, hnew, rfl⟩ := setStorageGroup_eq_ok_iff.1 h
  refine ⟨ht.dataNode, fun name p hget => ?_, ?_⟩
  · by_cases heq : name = schema.name
    · simp only [heq, SortedMap.get?_insert, Std.ReflCmp.compare_self, if_true,
        Option.some.injEq] at hget
      subst hget
      exact ⟨heq.symm, heq ▸ hname, hschema, hdata⟩
    · exact ht.storageGroup name p (by simpa [heq] using hget)
  · have hperm := perm_groupsOf_insert t.storageGroups schema.name ⟨schema, []⟩
    rw [SortedMap.erase_of_get?_eq_none hnew] at hperm
    exact ((hperm.map _).nodup_iff).2 ht.regionIds

theorem deleteStorageGroup (ht : t.WellFormed) {name : String}
    (h : t.deleteStorageGroup name = .ok t') : t'.WellFormed := by
  obtain ⟨hexists, rfl⟩ := deleteStorageGroup_eq_ok_iff.1 h
  obtain ⟨p, hp⟩ := Option.isSome_iff_exists.1 hexists
  refine ⟨ht.dataNode, fun other q hget => ?_, ?_⟩
  · by_cases heq : name = other
    · simp [heq] at hget
    · exact ht.storageGroup other q (by simpa [heq] using hget)
  · have hids := ((perm_groupsOf_erase hp).map ReplicaSet.regionId).nodup_iff.1 ht.regionIds
    rw [List.map_append] at hids
    exact (List.nodup_append'.1 hids).2.1

theorem createRegionGroups (ht : t.WellFormed) {groups : RegionGroupMap}
    (h : t.createRegionGroups groups = .ok t') : t'.WellFormed := by
  obtain ⟨-, hnodup, hfree, rfl⟩ := createRegionGroups_eq_ok_iff.1 h
  refine ⟨ht.dataNode, fun name p hget => ?_, ?_⟩
  · rw [get?_foldl_appendRegionGroups] at hget
    obtain ⟨q, hq, rfl⟩ := Option.map_eq_some_iff.1 hget
    exact ht.storageGroup name q hq
  · -- the ids of the command are new to the table, and different from each other
    exact (perm_regionIds_of_create h).nodup_iff.2
      (List.nodup_append'.2 ⟨ht.regionIds, hnodup, List.disjoint_symm hfree⟩)

/-- An accepted command leaves the table well formed. -/
theorem apply (ht : t.WellFormed) {c : Command} (h : t.apply c = .ok t') : t'.WellFormed := by
  cases c with
  | registerDataNode location => exact ht.registerDataNode h
  | setStorageGroup schema => exact ht.setStorageGroup h
  | deleteStorageGroup name => exact ht.deleteStorageGroup h
  | createRegionGroups groups => exact ht.createRegionGroups h

/-- In a well-formed table as many region groups are counted as there are ids. -/
theorem regionGroupCount_eq (ht : t.WellFormed) :
    t.regionGroupCount = t.regionIds.toFinset.card := by
  rw [List.toFinset_card_of_nodup ht.regionIds, Table.regionIds, List.length_map]
  rfl

end WellFormed

end Table

/-! ## runs -/

namespace State

/-- What happens to the state in a run. -/
inductive Event
  /-- A command is applied. -/
  | command (c : Command)
  /-- The command that some bytes are is applied, if they are one. -/
  | bytes (b : Bytes)
  /-- A position in the log is noted. -/
  | position (index : UInt64)
  /-- An earlier state comes back, so many events old. -/
  | restore (age : Nat)
  /-- The table of an earlier state comes back, so many events old. -/
  | restoreTable (age : Nat)

/-- A run: the state, and the states before, the last one first. -/
structure Run where
  state : State
  earlier : List State

namespace Run

/-- The run in which nothing has happened. -/
def start : Run := ⟨State.initial, []⟩

/-- The states of a run, the present one first. -/
def states (r : Run) : List State := r.state :: r.earlier

/-- The state behind an event.  What comes back is what the JSON of an earlier state, or of its
table, is read as. -/
def next (r : Run) : Event → State
  | .command c => (r.state.apply c).2
  | .bytes b =>
    match r.state.applyEncoded b with
    | .ok (_, s) => s
    | .error _ => r.state
  | .position index => { r.state with lastAppliedIndex := index }
  | .restore age =>
    match (r.states[age]?).map fun s => parseBytes (α := State) (writeBytes s) with
    | some (.ok s) => s
    | _ => r.state
  | .restoreTable age =>
    match (r.states[age]?).map fun s => parseBytes (α := Table) (writeBytes s.table) with
    | some (.ok table) => { r.state with table }
    | _ => r.state

/-- A run with one more event. -/
def step (r : Run) (e : Event) : Run := ⟨r.next e, r.states⟩

/-- The run in which these events happen. -/
def after (events : List Event) : Run := events.foldl step start

/-- A state that comes back is the state that it was. -/
theorem next_restore (r : Run) (age : Nat) :
    r.next (.restore age) = (r.states[age]?).getD r.state := by
  rw [next]
  cases r.states[age]? with
  | none => rfl
  | some s => rw [Option.map_some, parseBytes_writeBytes, Option.getD_some]

/-- A table that comes back is the table that it was. -/
theorem next_restoreTable (r : Run) (age : Nat) :
    (r.next (.restoreTable age)).table = ((r.states[age]?).getD r.state).table := by
  rw [next]
  cases r.states[age]? with
  | none => rfl
  | some s => rw [Option.map_some, parseBytes_writeBytes, Option.getD_some]

/-- A run whose tables are all well formed. -/
def WellFormed (r : Run) : Prop := ∀ s ∈ r.states, s.table.WellFormed

theorem wellFormed_start : start.WellFormed := fun s hs => by
  rw [List.mem_singleton.1 hs]
  exact Table.wellFormed_empty

/-- A state of the run, or the present one, has a well-formed table. -/
theorem WellFormed.getD {r : Run} (hr : r.WellFormed) (age : Nat) :
    ((r.states[age]?).getD r.state).table.WellFormed := by
  cases h : r.states[age]? with
  | none => exact hr r.state List.mem_cons_self
  | some s => exact hr s (List.mem_of_getElem? h)

/-- A command leaves the table well formed, whether it is accepted or not. -/
theorem wellFormed_apply {s : State} (hs : s.table.WellFormed) (c : Command) :
    (s.apply c).2.table.WellFormed := by
  rw [table_apply]
  cases h : s.table.apply c with
  | ok table => exact hs.apply h
  | error reason => exact hs

/-- **One event**: the table stays well formed. -/
theorem WellFormed.next {r : Run} (hr : r.WellFormed) (e : Event) :
    (r.next e).table.WellFormed := by
  have hs : r.state.table.WellFormed := hr r.state List.mem_cons_self
  cases e with
  | command c => exact wellFormed_apply hs c
  | bytes b =>
      rw [Run.next]
      cases h : Command.decode b with
      | ok c =>
          rw [applyEncoded_of_ok h]
          exact wellFormed_apply hs c
      | error reason =>
          rw [applyEncoded_of_error h]
          exact hs
  | position index => exact hs
  | restore age =>
      rw [next_restore]
      exact hr.getD age
  | restoreTable age =>
      rw [next_restoreTable]
      exact hr.getD age

theorem WellFormed.step {r : Run} (hr : r.WellFormed) (e : Event) : (r.step e).WellFormed :=
  List.forall_mem_cons.2 ⟨hr.next e, hr⟩

/-- All tables of a run are well formed. -/
theorem wellFormed_foldl (events : List Event) {r : Run} (hr : r.WellFormed) :
    (events.foldl Run.step r).WellFormed := by
  induction events generalizing r with
  | nil => exact hr
  | cons e rest ih => exact ih (hr.step e)

end Run

end State

/-- **Every table that a run reaches is well formed**: whatever commands and bytes are applied, and
whichever earlier states come back, data nodes and storage groups stand under their own names, the
settings of storage groups make sense, and as many region groups are counted as there are different
ids among them. -/
theorem Table.wellFormed_after (events : List State.Event) :
    (State.Run.after events).state.table.WellFormed
      ∧ (State.Run.after events).state.table.regionGroupCount
        = (State.Run.after events).state.table.regionIds.toFinset.card := by
  have hrun := State.Run.wellFormed_foldl events State.Run.wellFormed_start
  have htable := hrun (State.Run.after events).state List.mem_cons_self
  exact ⟨htable, htable.regionGroupCount_eq⟩

end ControlPlane
