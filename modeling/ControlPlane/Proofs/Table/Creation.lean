import ControlPlane.Proofs.Table.Effect
import ControlPlane.Proofs.Text.Order

/-!
# ControlPlane.Proofs.Table.Creation

What the table says to new region groups.  A command is read position by position, each storage
group in front of the region groups that are to be created in it.  The table refuses the command for
the first position that has a fault, whatever stands behind it (`createRegionGroups_eq_error_iff`),
and accepts it if no position has one.
-/

namespace ControlPlane.Table

variable {t t' : Table} {name : String} {taken taken' : List GroupId} {reason : Rejection}

/-! ## positions -/

/-- A position of a command: a storage group, or a region group to be created in it. -/
inductive Position
  | storageGroup (name : String)
  | regionGroup (storageGroup : String) (id : GroupId)

/-- The id of a region group. -/
def Position.id? : Position → Option GroupId
  | .storageGroup _ => none
  | .regionGroup _ id => some id

/-- The positions of one storage group behind its own. -/
def regionPositions (name : String) (rs : List ReplicaSet) : List Position :=
  rs.map fun r => .regionGroup name r.regionId

/-- The positions of a command in order. -/
def positions (l : List (String × List ReplicaSet)) : List Position :=
  l.flatMap fun e => .storageGroup e.1 :: regionPositions e.1 e.2

@[simp] theorem positions_cons (e : String × List ReplicaSet)
    (l : List (String × List ReplicaSet)) :
    positions (e :: l) = .storageGroup e.1 :: (regionPositions e.1 e.2 ++ positions l) := by
  simp [positions]

/-- What is wrong with a position: the storage group does not exist, or the id is taken. -/
def Position.fault? (t : Table) (taken : List GroupId) : Position → Option Rejection
  | .storageGroup name =>
    if t.storageGroups.contains name then none else some (.storageGroupNotFound name)
  | .regionGroup name id =>
    if id ∈ taken then some (.regionGroupAlreadyExists name id.label) else none

/-- What is wrong at an index.  The ids at earlier positions are taken as well. -/
def faultAt (t : Table) (taken : List GroupId) (ps : List Position) (i : Nat) :
    Option Rejection :=
  ps[i]?.bind (Position.fault? t (taken ++ (ps.take i).filterMap Position.id?))

/-- A rejection that says what is wrong at the first position with a fault. -/
def FirstFault (t : Table) (taken : List GroupId) (ps : List Position) (reason : Rejection) :
    Prop :=
  ∃ i, faultAt t taken ps i = some reason ∧ ∀ j < i, faultAt t taken ps j = none

/-- Faults depend on which storage groups exist, and on which ids are taken. -/
theorem faultAt_congr {ps : List Position}
    (hgroup : ∀ name, .storageGroup name ∈ ps →
      t.storageGroups.contains name = t'.storageGroups.contains name)
    (hid : ∀ name id, .regionGroup name id ∈ ps → (id ∈ taken ↔ id ∈ taken')) (i : Nat) :
    faultAt t taken ps i = faultAt t' taken' ps i := by
  rw [faultAt, faultAt]
  cases hp : ps[i]? with
  | none => rfl
  | some p =>
      have hmem := List.mem_of_getElem? hp
      cases p with
      | storageGroup name => simp only [Option.bind_some, Position.fault?, hgroup name hmem]
      | regionGroup name id =>
          simp only [Option.bind_some, Position.fault?, List.mem_append, hid name id hmem]

theorem firstFault_congr {ps : List Position}
    (hgroup : ∀ name, .storageGroup name ∈ ps →
      t.storageGroups.contains name = t'.storageGroups.contains name)
    (hid : ∀ name id, .regionGroup name id ∈ ps → (id ∈ taken ↔ id ∈ taken')) :
    FirstFault t taken ps reason ↔ FirstFault t' taken' ps reason := by
  simp only [FirstFault, faultAt_congr hgroup hid]

@[simp] theorem faultAt_cons_zero (p : Position) (ps : List Position) :
    faultAt t taken (p :: ps) 0 = p.fault? t taken := by
  simp [faultAt]

@[simp] theorem faultAt_cons_succ (p : Position) (ps : List Position) (i : Nat) :
    faultAt t taken (p :: ps) (i + 1) = faultAt t (taken ++ p.id?.toList) ps i := by
  rw [faultAt, faultAt, List.getElem?_cons_succ, List.take_succ_cons]
  cases p <;> simp [Position.id?, List.filterMap_cons]

theorem not_firstFault_nil : ¬FirstFault t taken [] reason := by
  simp [FirstFault, faultAt]

/-- The first fault is at the first position, or the first one behind it. -/
theorem firstFault_cons_iff {p : Position} {ps : List Position} :
    FirstFault t taken (p :: ps) reason
      ↔ p.fault? t taken = some reason
        ∨ p.fault? t taken = none ∧ FirstFault t (taken ++ p.id?.toList) ps reason := by
  constructor
  · rintro ⟨i, hi, hbefore⟩
    cases i with
    | zero => exact .inl (by simpa using hi)
    | succ i =>
        refine .inr ⟨by simpa using hbefore 0 (Nat.zero_lt_succ i), i, by simpa using hi,
          fun j hj => ?_⟩
        simpa using hbefore (j + 1) (Nat.succ_lt_succ hj)
  · rintro (hhead | ⟨hhead, i, hi, hbefore⟩)
    · exact ⟨0, by simpa using hhead, fun j hj => absurd hj (Nat.not_lt_zero j)⟩
    · refine ⟨i + 1, by simpa using hi, fun j hj => ?_⟩
      cases j with
      | zero => simpa using hhead
      | succ j => simpa using hbefore j (Nat.lt_of_succ_lt_succ hj)

/-! ## the check -/

/-- Region groups of one storage group fail at the first id that is taken; if there is none, the
first fault is behind them. -/
theorem firstFault_regionPositions (rs : List ReplicaSet) (ps : List Position) :
    FirstFault t taken (regionPositions name rs ++ ps) reason
      ↔ allocate name taken rs = .error reason
        ∨ ∃ taken', allocate name taken rs = .ok taken' ∧ FirstFault t taken' ps reason := by
  induction rs generalizing taken with
  | nil => simp [regionPositions, allocate]
  | cons r rest ih =>
      rw [regionPositions, List.map_cons, List.cons_append, firstFault_cons_iff, allocate,
        Position.fault?]
      split
      · simp
      · -- The id of an earlier position counts as taken, wherever it stands among those.
        have hcongr : FirstFault t (taken ++ [r.regionId]) (regionPositions name rest ++ ps) reason
            ↔ FirstFault t (r.regionId :: taken) (regionPositions name rest ++ ps) reason :=
          firstFault_congr (fun _ _ => rfl) fun _ id _ => by simp [or_comm]
        simp only [reduceCtorEq, false_or, true_and, Position.id?, Option.toList_some]
        exact hcongr.trans ih

/-- The check of a command fails at its first fault. -/
theorem allocateAll_eq_error_iff {l : List (String × List ReplicaSet)} :
    t.allocateAll taken l = .error reason ↔ FirstFault t taken (positions l) reason := by
  induction l generalizing taken with
  | nil => simp [allocateAll, positions, not_firstFault_nil]
  | cons e rest ih =>
      rw [allocateAll, positions_cons, firstFault_cons_iff, Position.fault?]
      split
      · rw [Position.id?, Option.toList_none, List.append_nil, firstFault_regionPositions]
        cases hallocate : allocate e.1 taken e.2 with
        | error reason' => simp [bind, Except.bind]
        | ok taken' => simpa [bind, Except.bind] using ih
      · simp

/-- **New region groups** are refused for the first fault. -/
theorem createRegionGroups_eq_error_iff {groups : RegionGroupMap} :
    t.createRegionGroups groups = .error reason
      ↔ FirstFault t t.regionIds (positions groups.entries) reason := by
  rw [← allocateAll_eq_error_iff, createRegionGroups, regionIds]
  cases t.allocateAll (t.regionGroups.map (·.regionId)) groups.entries <;>
    simp [bind, Except.bind, pure, Except.pure]

/-! ## the whole verdict -/

/-- **What becomes of new region groups.**  They are accepted exactly if every storage group of the
command exists, the ids in the command are different from each other, and no storage group has one
of them.  Then each storage group of the command has its new region groups behind the old ones, and
nothing else has changed.  Otherwise the command is refused for what is wrong at the first position
with a fault, where the storage groups come in the order of the bytes of their names, each followed
by its region groups from left to right. -/
theorem create_accepted_or_first_fault (t : Table) (groups : RegionGroupMap) :
    ((∃ t', t.apply (.createRegionGroups groups) = .ok t')
      ↔ (∀ name ∈ groups.keys, ∃ p, t.storageGroup? name = some p) ∧
        (newIds groups.entries).Nodup ∧
        ∀ id ∈ newIds groups.entries, ∀ name, id ∉ t.regionIdsOf name) ∧
    (∀ t', t.apply (.createRegionGroups groups) = .ok t' →
      (∀ name rs, groups.get? name = some rs →
        ∃ p, t.storageGroup? name = some p ∧
          t'.storageGroup? name = some { p with regionGroups := p.regionGroups ++ rs }) ∧
      (∀ name, groups.get? name = none → t'.storageGroup? name = t.storageGroup? name) ∧
      ∀ id, t'.dataNode? id = t.dataNode? id) ∧
    (∀ reason, t.apply (.createRegionGroups groups) = .error reason
      ↔ ∃ i, faultAt t t.regionIds (positions groups.entries) i = some reason ∧
        ∀ j < i, faultAt t t.regionIds (positions groups.entries) j = none) ∧
    (groups.keys.map Utf8.encode).Pairwise (· < ·) := by
  refine ⟨?_, fun t' h => ⟨fun name rs hrs => ?_, fun name hnone => ?_, fun id => ?_⟩,
    fun reason => createRegionGroups_eq_error_iff, groups.pairwise_encode_keys⟩
  · rw [exists_create_iff]
    simp only [mem_regionIds_iff, not_exists]
  · obtain ⟨p, hp⟩ := (exists_create_iff.1 ⟨t', h⟩).1 name (SortedMap.mem_keys_iff.2 ⟨rs, hrs⟩)
    refine ⟨p, hp, ?_⟩
    rw [storageGroup?_of_apply h, hp, groupBehind, newGroups_eq, hrs]
    rfl
  · rw [storageGroup?_of_apply h, groupBehind_of_not_mem (SortedMap.not_mem_keys_iff.2 hnone)]
  · rw [dataNode?_eq_of_apply h]
    rfl

/-- One of two storage groups gains a region group. -/
def gain : RegionGroupMap := SortedMap.ofList [("g", [bareRegion 1])]

/-- A region group of the second storage group has the id of one of the first, and the third storage
group does not exist. -/
def twoFaults : RegionGroupMap :=
  SortedMap.ofList
    [("g", [bareRegion 1, bareRegion 2]), ("h", [bareRegion 3, bareRegion 1]), ("i", [])]

theorem create_accepted_or_first_fault_twoFaults :
    (∃ p, uneven.storageGroup? "g" = some p ∧
      (uneven.next (.createRegionGroups gain)).storageGroup? "g"
        = some { p with regionGroups := p.regionGroups ++ [bareRegion 1] }) ∧
    (uneven.next (.createRegionGroups gain)).storageGroup? "h" = uneven.storageGroup? "h" ∧
    uneven.apply (.createRegionGroups twoFaults)
      = .error (.regionGroupAlreadyExists "h" "DataRegion-1") := by
  obtain ⟨-, hafter, -, -⟩ := create_accepted_or_first_fault uneven gain
  obtain ⟨hgains, hstays, -⟩ := hafter (uneven.next (.createRegionGroups gain)) rfl
  refine ⟨hgains "g" _ (by decide), hstays "h" (by decide), ?_⟩
  obtain ⟨-, -, hfault, -⟩ := create_accepted_or_first_fault uneven twoFaults
  exact (hfault _).2 ⟨5, by decide +kernel, by decide +kernel⟩

end ControlPlane.Table
