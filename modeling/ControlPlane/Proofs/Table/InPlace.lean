import ControlPlane.Proofs.Command.RoundTrip
import ControlPlane.Proofs.Table.Apply

/-!
# ControlPlane.Proofs.Table.InPlace

Commands in place.  `Table.apply` gives a table or a reason, so it could not leave a table half
changed.  A node has one table, though, which it changes step by step, and a step that was done
stays done when a later one fails.  Here are the commands as procedures of that kind.  They check
all that there is to check before they write, and so they come to the same as `Table.apply`, with
the table as it was if they fail (`apply_eq`).  The same holds of commands that arrive as bytes
(`applyEncoded_eq`).
-/

namespace ControlPlane.InPlace

/-! ## procedures -/

/-- A procedure: its result or why it fails, and what the state is then.  To fail undoes nothing. -/
def Procedure (σ ε α : Type) : Type := σ → Except ε α × σ

namespace Procedure

variable {σ τ ε ε' α β : Type}

/-- Does nothing. -/
protected def pure (a : α) : Procedure σ ε α := fun s => (.ok a, s)

/-- Runs the second procedure on the state that the first one leaves; a failure stops. -/
protected def bind (p : Procedure σ ε α) (f : α → Procedure σ ε β) : Procedure σ ε β := fun s =>
  match p s with
  | (.ok a, s) => f a s
  | (.error e, s) => (.error e, s)

instance : Monad (Procedure σ ε) where
  pure := Procedure.pure
  bind := Procedure.bind

/-- The state. -/
def read : Procedure σ ε σ := fun s => (.ok s, s)

/-- Changes the state. -/
def write (f : σ → σ) : Procedure σ ε Unit := fun s => (.ok (), f s)

/-- Fails. -/
def fail (e : ε) : Procedure σ ε α := fun s => (.error e, s)

/-- A result that does not depend on the state. -/
def ofExcept (x : Except ε α) : Procedure σ ε α := fun s => (x, s)

/-- How a procedure ends, whether it fails or not. -/
def attempt (p : Procedure σ ε α) : Procedure σ ε' (Except ε α) := fun s =>
  let (x, s) := p s
  (.ok x, s)

/-- A procedure on a part of a state. -/
def within (get : τ → σ) (set : σ → τ → τ) (p : Procedure σ ε α) : Procedure τ ε α := fun s =>
  let (x, part) := p (get s)
  (x, set part s)

theorem bind_read (f : σ → Procedure σ ε β) (s : σ) : (read >>= f) s = f s s := rfl

theorem bind_write (g : σ → σ) (f : Unit → Procedure σ ε β) (s : σ) :
    (write g >>= f) s = f () (g s) := rfl

theorem bind_ofExcept_ok (a : α) (f : α → Procedure σ ε β) (s : σ) :
    (ofExcept (.ok a) >>= f) s = f a s := rfl

theorem bind_ofExcept_error (e : ε) (f : α → Procedure σ ε β) (s : σ) :
    (ofExcept (.error e) >>= f) s = (.error e, s) := rfl

theorem bind_of_ok {p : Procedure σ ε α} {f : α → Procedure σ ε β} {s s' : σ} {a : α}
    (h : p s = (.ok a, s')) : (p >>= f) s = f a s' := by
  show Procedure.bind p f s = _
  rw [Procedure.bind, h]

theorem bind_of_error {p : Procedure σ ε α} {f : α → Procedure σ ε β} {s s' : σ} {e : ε}
    (h : p s = (.error e, s')) : (p >>= f) s = (.error e, s') := by
  show Procedure.bind p f s = _
  rw [Procedure.bind, h]

end Procedure

open Procedure

/-- How a change of a state ends in place: it is made, or the state stays as it is. -/
def settle {σ ε : Type} (s : σ) : Except ε σ → Except ε Unit × σ
  | .ok s' => (.ok (), s')
  | .error e => (.error e, s)

/-! ## the commands -/

/-- Makes a data node known. -/
def registerDataNode (location : Location) : Procedure Table Rejection Unit := do
  match (← read).dataNodes.get? location.dataNodeId with
  | some known =>
    if known = location then return else fail (.dataNodeConflict location.dataNodeId)
  | none => write fun t => { t with dataNodes := t.dataNodes.insert location.dataNodeId location }

/-- Creates a storage group without region groups. -/
def setStorageGroup (schema : StorageGroupSchema) : Procedure Table Rejection Unit := do
  if schema.name = "" then
    fail (.invalidStorageGroup schema.name "name must not be empty")
  else if schema.schemaReplicationFactor < 1 ∨ schema.dataReplicationFactor < 1 then
    fail (.invalidStorageGroup schema.name "replication factors must be at least 1")
  else if (← read).storageGroups.contains schema.name then
    fail (.storageGroupAlreadyExists schema.name)
  else
    write fun t => { t with storageGroups := t.storageGroups.insert schema.name ⟨schema, []⟩ }

/-- Removes a storage group.  Whether it was there is only looked at afterwards. -/
def deleteStorageGroup (name : String) : Procedure Table Rejection Unit := do
  let removed := (← read).storageGroups.get? name
  write fun t => { t with storageGroups := t.storageGroups.erase name }
  match removed with
  | some _ => return
  | none => fail (.storageGroupNotFound name)

/-- Checks the storage groups of a command in order. -/
def allocateAll :
    List GroupId → List (String × List ReplicaSet) → Procedure Table Rejection (List GroupId)
  | taken, [] => return taken
  | taken, (name, replicaSets) :: rest => do
    if (← read).storageGroups.contains name then
      let taken ← ofExcept (Table.allocate name taken replicaSets)
      allocateAll taken rest
    else
      fail (.storageGroupNotFound name)

/-- Appends the region groups of a command, one storage group after the other. -/
def appendAll : List (String × List ReplicaSet) → Procedure Table Rejection Unit
  | [] => return
  | e :: rest => do
    write fun t => { t with storageGroups := Table.appendRegionGroups t.storageGroups e }
    appendAll rest

/-- Creates region groups: a first pass over the command checks, a second one writes. -/
def createRegionGroups (groups : RegionGroupMap) : Procedure Table Rejection Unit := do
  let taken := (← read).regionGroups.map (·.regionId)
  let _ ← allocateAll taken groups.entries
  appendAll groups.entries

/-- Applies a command to a table. -/
def apply : Command → Procedure Table Rejection Unit
  | .registerDataNode location => registerDataNode location
  | .setStorageGroup schema => setStorageGroup schema
  | .deleteStorageGroup name => deleteStorageGroup name
  | .createRegionGroups groups => createRegionGroups groups

/-- Applies a command to the table of a state. -/
def applyTo (c : Command) : Procedure State Rejection Unit :=
  (apply c).within State.table fun table s => { s with table }

/-- What it comes to that a command ends so. -/
def outcome : Except Rejection Unit → Outcome
  | .ok () => .applied
  | .error reason => .rejected reason

/-- Applies the command that some bytes are to the table of a state. -/
def applyEncoded (bytes : Bytes) : Procedure State Wire.DecodeError Outcome := do
  let c ← ofExcept (Command.decode bytes)
  return outcome (← attempt (applyTo c))

/-! ## what they come to -/

theorem registerDataNode_eq (location : Location) (t : Table) :
    registerDataNode location t = settle t (t.registerDataNode location) := by
  rw [registerDataNode, bind_read, Table.registerDataNode]
  cases t.dataNodes.get? location.dataNodeId with
  | none => rfl
  | some known =>
      simp only
      split <;> rfl

theorem setStorageGroup_eq (schema : StorageGroupSchema) (t : Table) :
    setStorageGroup schema t = settle t (t.setStorageGroup schema) := by
  rw [setStorageGroup, Table.setStorageGroup]
  split
  · rfl
  · split
    · rfl
    · rw [bind_read]
      split <;> rfl

/-- To remove a storage group that is not there changes nothing, so that comes to a refusal too. -/
theorem deleteStorageGroup_eq (name : String) (t : Table) :
    deleteStorageGroup name t = settle t (t.deleteStorageGroup name) := by
  rw [deleteStorageGroup, bind_read, bind_write, Table.deleteStorageGroup,
    SortedMap.contains]
  cases hget : t.storageGroups.get? name with
  | some p => rfl
  | none =>
      simp only [SortedMap.erase_of_get?_eq_none hget]
      rfl

/-- The first pass changes nothing, wherever it fails. -/
theorem allocateAll_eq (taken : List GroupId) (l : List (String × List ReplicaSet)) (t : Table) :
    allocateAll taken l t = (t.allocateAll taken l, t) := by
  induction l generalizing taken with
  | nil => rfl
  | cons e rest ih =>
      rw [allocateAll, bind_read, Table.allocateAll]
      split
      · cases h : Table.allocate e.1 taken e.2 with
        | ok taken' =>
            rw [bind_ofExcept_ok, ih]
            rfl
        | error reason =>
            rw [bind_ofExcept_error]
            rfl
      · rfl

/-- The second pass does not fail. -/
theorem appendAll_eq (l : List (String × List ReplicaSet)) (t : Table) :
    appendAll l t
      = (.ok (), { t with storageGroups := l.foldl Table.appendRegionGroups t.storageGroups }) := by
  induction l generalizing t with
  | nil => rfl
  | cons e rest ih => rw [appendAll, bind_write, ih, List.foldl_cons]

theorem createRegionGroups_eq (groups : RegionGroupMap) (t : Table) :
    createRegionGroups groups t = settle t (t.createRegionGroups groups) := by
  rw [createRegionGroups, bind_read, Table.createRegionGroups]
  have hcheck := allocateAll_eq (t.regionGroups.map (·.regionId)) groups.entries t
  cases h : t.allocateAll (t.regionGroups.map (·.regionId)) groups.entries with
  | ok taken =>
      rw [h] at hcheck
      rw [bind_of_ok hcheck, appendAll_eq]
      rfl
  | error reason =>
      rw [h] at hcheck
      rw [bind_of_error hcheck]
      rfl

/-- **A command in place** does what `Table.apply` says, and leaves the table as it is if that
refuses it. -/
theorem apply_eq (c : Command) (t : Table) : apply c t = settle t (t.apply c) := by
  cases c with
  | registerDataNode location => exact registerDataNode_eq location t
  | setStorageGroup schema => exact setStorageGroup_eq schema t
  | deleteStorageGroup name => exact deleteStorageGroup_eq name t
  | createRegionGroups groups => exact createRegionGroups_eq groups t

/-- What fails in place has changed nothing. -/
theorem eq_of_settle_error {σ ε : Type} {s s' : σ} {x : Except ε σ} {e : ε}
    (h : settle s x = (.error e, s')) : s' = s := by
  cases x with
  | ok _ => cases h
  | error _ =>
      cases h
      rfl

theorem applyTo_eq (c : Command) (s : State) :
    (outcome (applyTo c s).1, (applyTo c s).2) = s.apply c := by
  rw [applyTo, within, apply_eq, State.apply]
  cases s.table.apply c <;> rfl

/-- A command that is refused leaves the state as it is. -/
theorem applyTo_of_error {c : Command} {s : State} {reason : Rejection}
    (h : (applyTo c s).1 = .error reason) : (applyTo c s).2 = s := by
  rw [applyTo, within, apply_eq] at h ⊢
  cases happly : s.table.apply c with
  | ok t => rw [happly] at h; cases h
  | error _ => rfl

/-- Bytes that are a command come to what the command comes to. -/
theorem applyEncoded_of_ok {b : Bytes} {c : Command} (h : Command.decode b = .ok c) (s : State) :
    applyEncoded b s = (.ok (outcome (applyTo c s).1), (applyTo c s).2) := by
  rw [applyEncoded, h, bind_ofExcept_ok]
  rfl

theorem applyEncoded_of_error {b : Bytes} {reason : Wire.DecodeError}
    (h : Command.decode b = .error reason) (s : State) :
    applyEncoded b s = (.error reason, s) := by
  rw [applyEncoded, h, bind_ofExcept_error]

/-- **Bytes in place** come to what `State.applyEncoded` says, and leave the state as it is if they
are no command. -/
theorem applyEncoded_eq (b : Bytes) (s : State) :
    applyEncoded b s
      = (match s.applyEncoded b with
        | .ok (done, s') => (.ok done, s')
        | .error reason => (.error reason, s)) := by
  cases h : Command.decode b with
  | ok c => rw [applyEncoded_of_ok h, State.applyEncoded_of_ok h, ← applyTo_eq]
  | error reason => rw [applyEncoded_of_error h, State.applyEncoded_of_error h]

/-- **All or nothing.**  Whatever the state is, reached by commands or not, and whatever the bytes
are: in place they come to what `State.applyEncoded` says; if they are refused as no command, the
state stays as it is, and they are not the bytes of any command; if the table refuses their command,
the state stays as it is, as does any table that refuses any command in place; and the bytes of a
command come to just what that command comes to, with the same state behind it. -/
theorem applyEncoded_atomic (s : State) (b : Bytes) :
    applyEncoded b s
        = (match s.applyEncoded b with
          | .ok (done, s') => (.ok done, s')
          | .error reason => (.error reason, s)) ∧
      (∀ reason, (applyEncoded b s).1 = .error reason →
        (applyEncoded b s).2 = s ∧ ∀ c : Command, c.encode ≠ .ok b) ∧
      (∀ reason, (applyEncoded b s).1 = .ok (.rejected reason) → (applyEncoded b s).2 = s) ∧
      (∀ (t : Table) (c : Command) (reason : Rejection), (apply c t).1 = .error reason →
        (apply c t).2 = t) ∧
      (∀ c : Command, c.encode = .ok b →
        applyEncoded b s = (.ok (outcome (applyTo c s).1), (applyTo c s).2)) := by
  refine ⟨applyEncoded_eq b s, fun reason h => ?_, fun reason h => ?_, fun t c reason h => ?_,
    fun c hc => applyEncoded_of_ok (Command.decode_eq_ok_iff_encode.2 hc) s⟩
  · cases hdecode : Command.decode b with
    | ok c =>
        rw [applyEncoded_of_ok hdecode] at h
        cases h
    | error reason' =>
        refine ⟨by rw [applyEncoded_of_error hdecode], fun c hc => ?_⟩
        rw [Command.decode_eq_ok_iff_encode.2 hc] at hdecode
        cases hdecode
  · cases hdecode : Command.decode b with
    | ok c =>
        rw [applyEncoded_of_ok hdecode] at h ⊢
        have hfails : (applyTo c s).1 = .error reason := by
          cases hend : (applyTo c s).1 with
          | ok u => rw [hend] at h; cases h
          | error reason' =>
              rw [hend] at h
              cases h
              rfl
        exact applyTo_of_error hfails
    | error reason' =>
        rw [applyEncoded_of_error hdecode] at h
        cases h
  · rw [apply_eq] at h ⊢
    exact eq_of_settle_error (Prod.ext h rfl)

/-- A region group without replicas. -/
def emptyRegion (id : Int32) : ReplicaSet := ⟨⟨.dataRegion, id⟩, []⟩

/-- A state that no commands lead to: a storage group stands under a name that is not its own, and
a region group is there twice. -/
def crooked : State where
  table := ⟨SortedMap.empty, SortedMap.ofList
    [("a", ⟨.ofName "z", [emptyRegion 0, emptyRegion 0]⟩), ("b", ⟨.ofName "b", []⟩)]⟩
  lastAppliedIndex := 41

/-- The last region group of the last storage group is there already. -/
def lateClash : Command :=
  .createRegionGroups
    (SortedMap.ofList [("a", [emptyRegion 1]), ("b", [emptyRegion 2, emptyRegion 0])])

theorem applyEncoded_atomic_lateClash :
    (∃ b, lateClash.encode = .ok b ∧
      (applyEncoded b crooked).1
        = .ok (.rejected (.regionGroupAlreadyExists "b" "DataRegion-0")) ∧
      (applyEncoded b crooked).2 = crooked) ∧
    (apply lateClash crooked.table).2 = crooked.table ∧
    (applyEncoded [0, 0, 0, 9] crooked).1 = .error (.unknownKind 9) ∧
    (applyEncoded [0, 0, 0, 9] crooked).2 = crooked ∧
    ∀ c : Command, c.encode ≠ .ok [0, 0, 0, 9] := by
  obtain ⟨b, hb⟩ := Command.exists_encode_iff_fits.2 (by decide : lateClash.Fits)
  obtain ⟨-, -, hrejected, htable, hsame⟩ := applyEncoded_atomic crooked b
  have happly : (applyTo lateClash crooked).1
      = .error (.regionGroupAlreadyExists "b" "DataRegion-0") := by decide +kernel
  have hend : (applyEncoded b crooked).1
      = .ok (.rejected (.regionGroupAlreadyExists "b" "DataRegion-0")) := by
    rw [hsame lateClash hb, happly]
    rfl
  obtain ⟨-, hjunk, -⟩ := applyEncoded_atomic crooked [0, 0, 0, 9]
  obtain ⟨hstays, hnone⟩ := hjunk (.unknownKind 9) rfl
  exact ⟨⟨b, hb, hend, hrejected _ hend⟩,
    htable crooked.table lateClash (.regionGroupAlreadyExists "b" "DataRegion-0")
      (by decide +kernel), rfl, hstays, hnone⟩

end ControlPlane.InPlace
