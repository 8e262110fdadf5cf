import ControlPlane.Consensus.Form
import ControlPlane.Number.Decimal
import ControlPlane.Storage.Disk
import ControlPlane.Storage.Record

/-!
# ControlPlane.Storage

The storage of a node: its log, its vote, and the state that the applied part of the log amounts to.
The state is kept in memory and, with the position that it reflects and the membership in force
there, as one value on disk, so the three cannot come apart.

An operation on the log is a list of writes.  An operation on the state goes entry by entry, each
with one write, and stops where it fails.
-/

namespace ControlPlane

open Json (Form member named toJson ofJson? parseBytes writeBytes)

namespace Storage

open Consensus

/-- The applied part of the log: up to where, with which membership, and to what state. -/
structure Applied where
  lastApplied : Option LogId
  membership : StoredMembership
  state : State
  deriving DecidableEq

/-- Nothing applied. -/
def Applied.initial : Applied := ⟨none, StoredMembership.initial, State.initial⟩

/-- The members of the applied part at rest. -/
def Applied.members : List Json.Reader.Member :=
  [member (Option LogId) "last_applied", member StoredMembership "membership",
    member State "state"]

instance : Form Applied where
  toJson a := named Applied.members [toJson a.lastApplied, toJson a.membership, toJson a.state]
  ofJson? j := do
    let [lastApplied, membership, state] ← j.values? | none
    return ⟨← ofJson? lastApplied, ← ofJson? membership, ← ofJson? state⟩
  reader := Json.Reader.record Applied.members

/-- What a storage error is about. -/
inductive Subject
  | logs
  | vote
  | stateMachine
  | snapshot
  deriving DecidableEq, Repr

/-- Why a storage operation fails. -/
inductive Error
  /-- Stored bytes, or the bytes of a snapshot, cannot be read. -/
  | unreadable (subject : Subject)
  /-- The bytes of a log entry are no command, and the policy is to halt. -/
  | undecodable (logId : LogId) (reason : Wire.DecodeError)
  deriving DecidableEq, Repr

end Storage

open Consensus Storage

/-- The storage of a running node. -/
structure Storage where
  disk : Disk
  /-- The state in memory. -/
  state : State
  /-- The number of snapshots built so far. -/
  snapshots : UInt64
  policy : DecodePolicy

namespace Storage

/-! ## Opening -/

/-- Reads a fixed record. -/
def readFixed {α : Type} [Fixed α] (d : Disk) (key : Key) (subject : Subject) :
    Except Error (Option α) :=
  match d.value key with
  | none => .ok none
  | some bytes =>
    match Fixed.get? bytes with
    | some a => .ok (some a)
    | none => .error (.unreadable subject)

/-- Opens a disk: the number of snapshots and the state are taken from there.  A disk on which
either is unreadable cannot be opened. -/
def open? (d : Disk) (policy : DecodePolicy) : Option Storage := do
  let snapshots ←
    match d.value .snapshotIndex with
    | none => some 0
    | some bytes => Fixed.get? bytes
  let state ←
    match d.value .applied with
    | none => some State.initial
    | some bytes => (parseBytes (α := Applied) bytes).toOption.map (·.state)
  return { disk := d, state, snapshots, policy }

/-- A storage on a new disk. -/
def create (policy : DecodePolicy) : Storage := ⟨Disk.empty, State.initial, 0, policy⟩

/-! ## The log -/

/-- The writes that append entries.  An entry replaces one at its index. -/
def appendWrites (entries : List Entry) : List Write :=
  entries.map fun e => .putEntry e.logId.index (writeBytes e)

/-- The writes that drop the entries from an index on, the first ones first. -/
def truncateWrites (d : Disk) (from' : UInt64) : List Write :=
  (d.log.keys.filter (from' ≤ ·)).map .removeEntry

/-- The writes that drop the entries up to a position.  The position is noted first, and the first
entries go first. -/
def purgeWrites (d : Disk) (upTo : LogId) : List Write :=
  .putValue .lastPurged (Fixed.put upTo)
    :: (d.log.keys.filter (· ≤ upTo.index)).map .removeEntry

/-- Does writes. -/
def writeAll (s : Storage) (writes : List Write) : Storage :=
  { s with disk := s.disk.writeAll writes }

/-- Appends entries to the log. -/
def append (s : Storage) (entries : List Entry) : Storage := s.writeAll (appendWrites entries)

/-- Drops the entries from an index on. -/
def truncate (s : Storage) (from' : UInt64) : Storage := s.writeAll (truncateWrites s.disk from')

/-- Drops the entries up to a position, and remembers it. -/
def purge (s : Storage) (upTo : LogId) : Storage := s.writeAll (purgeWrites s.disk upTo)

/-- An end of a range of indices. -/
inductive Bound
  | included (index : UInt64)
  | excluded (index : UInt64)
  | unbounded
  deriving DecidableEq, Repr

/-- The first index of a range that begins so. -/
def Bound.start : Bound → UInt64
  | .included i => i
  | .excluded i => i + 1
  | .unbounded => 0

/-- Whether an index is not in front of a range that begins so. -/
def Bound.allowsFrom : Bound → UInt64 → Bool
  | .included i, n => i ≤ n
  | .excluded i, n => i < n
  | .unbounded, _ => true

/-- Whether an index is not behind a range that ends so. -/
def Bound.allowsTo : Bound → UInt64 → Bool
  | .included i, n => n ≤ i
  | .excluded i, n => n < i
  | .unbounded, _ => true

/-- Reads stored entries in order, up to the first that is outside the range.  That one is read
too. -/
def readWhile {κ : Type} (inRange : UInt64 → Bool) : List (κ × Bytes) → Except Error (List Entry)
  | [] => .ok []
  | (_, bytes) :: rest =>
    match parseBytes (α := Entry) bytes with
    | .error _ => .error (.unreadable .logs)
    | .ok e =>
      if inRange e.logId.index then do return e :: (← readWhile inRange rest)
      else .ok []

/-- The entries of a range. -/
def entries (s : Storage) (low high : Bound) : Except Error (List Entry) :=
  readWhile (fun i => low.allowsFrom i && high.allowsTo i)
    (s.disk.log.entries.filter fun e => low.start ≤ e.1)

/-- The state of a log: where it was purged, and where it ends. -/
structure LogState where
  lastPurged : Option LogId
  /-- The last entry; the last one purged if there is none. -/
  last : Option LogId
  deriving DecidableEq, Repr

/-- The state of the log. -/
def logState (s : Storage) : Except Error LogState := do
  let lastPurged ← readFixed s.disk .lastPurged .logs
  match s.disk.log.last? with
  | none => return ⟨lastPurged, lastPurged⟩
  | some (_, bytes) =>
    match parseBytes (α := Entry) bytes with
    | .ok e => return ⟨lastPurged, some e.logId⟩
    | .error _ => throw (.unreadable .logs)

/-! ## The vote -/

/-- Stores a vote. -/
def saveVote (s : Storage) (v : Vote) : Storage := s.writeAll [.putValue .vote (Fixed.put v)]

/-- The vote that was stored last. -/
def readVote (s : Storage) : Except Error (Option Vote) := readFixed s.disk .vote .vote

/-! ## The state -/

/-- The applied part as it is on disk. -/
def loadApplied (d : Disk) : Except Error Applied :=
  match d.value .applied with
  | none => .ok Applied.initial
  | some bytes =>
    match parseBytes bytes with
    | .ok a => .ok a
    | .error _ => .error (.unreadable .stateMachine)

/-- What is applied: up to where, and with which membership. -/
def applied (s : Storage) : Except Error (Option LogId × StoredMembership) := do
  let a ← loadApplied s.disk
  return (a.lastApplied, a.membership)

/-- The effect of an entry on the state.  Only a command has one; bytes that are no command are
passed over or stop everything, as the policy says. -/
def applyPayload (policy : DecodePolicy) (state : State) (e : Entry) :
    Except Error (Outcome × State) :=
  match e.payload with
  | .normal bytes =>
    match state.applyEncoded bytes with
    | .ok r => .ok r
    | .error reason =>
      match policy with
      | .halt => .error (.undecodable e.logId reason)
      | .skip => .ok (.skipped reason.message, state)
  | _ => .ok (.applied, state)

/-- The membership in force behind an entry. -/
def nextMembership (m : StoredMembership) (e : Entry) : StoredMembership :=
  match e.payload with
  | .membership membership => ⟨some e.logId, membership⟩
  | _ => m

/-- Applies one entry, and stores the state that results together with its position. -/
def applyEntry (s : Storage) (m : StoredMembership) (e : Entry) :
    Except Error (Outcome × Storage × StoredMembership) := do
  let (outcome, state) ← applyPayload s.policy s.state e
  let state := { state with lastAppliedIndex := e.logId.index }
  let m := nextMembership m e
  let write := .putValue .applied (writeBytes (Applied.mk (some e.logId) m state))
  return (outcome, { s with disk := s.disk.write write, state }, m)

/-- Applies entries in order; one that fails ends it, and those before it stay applied. -/
def applyFrom (s : Storage) (m : StoredMembership) :
    List Entry → Except Error (List Outcome) × Storage
  | [] => (.ok [], s)
  | e :: rest =>
    match s.applyEntry m e with
    | .error error => (.error error, s)
    | .ok (outcome, s, m) =>
      let (outcomes, s) := s.applyFrom m rest
      (outcomes.map (outcome :: ·), s)

/-- Applies entries to the state. -/
def apply (s : Storage) (entries : List Entry) : Except Error (List Outcome) × Storage :=
  match loadApplied s.disk with
  | .error error => (.error error, s)
  | .ok a => s.applyFrom a.membership entries

/-! ## Snapshots -/

/-- The name of a snapshot: the position that it covers, and its number. -/
def snapshotName (last : Option LogId) (number : UInt64) : String :=
  match last with
  | some id => id.label ++ "-" ++ Decimal.natural number.toNat
  | none => "--" ++ Decimal.natural number.toNat

/-- Takes the next number for a snapshot, which is noted on disk before it is used. -/
def takeNumber (s : Storage) : UInt64 × Storage :=
  let number := s.snapshots + 1
  (number, { s with
    snapshots := number
    disk := s.disk.write (.putValue .snapshotIndex (Fixed.put number)) })

/-- The snapshot of what is applied, under a number. -/
def snapshotOf (a : Applied) (number : UInt64) : Snapshot where
  about := ⟨a.lastApplied, a.membership, snapshotName a.lastApplied number⟩
  data := writeBytes a.state

/-- Makes a snapshot the current one. -/
def putSnapshot (s : Storage) (snapshot : Snapshot) : Storage :=
  s.writeAll [.putValue .currentSnapshot (writeBytes snapshot)]

/-- Builds a snapshot of what is applied on disk, and makes it the current one. -/
def buildSnapshot (s : Storage) : Except Error Snapshot × Storage :=
  match loadApplied s.disk with
  | .error error => (.error error, s)
  | .ok a =>
    let (number, s) := s.takeNumber
    let snapshot := snapshotOf a number
    (.ok snapshot, s.putSnapshot snapshot)

/-- The current snapshot. -/
def currentSnapshot (s : Storage) : Except Error (Option Snapshot) :=
  match s.disk.value .currentSnapshot with
  | none => .ok none
  | some bytes =>
    match parseBytes bytes with
    | .ok snapshot => .ok (some snapshot)
    | .error _ => .error (.unreadable .snapshot)

/-- Installs a snapshot in place of everything applied.  The state and the snapshot are written at
once. -/
def installSnapshot (s : Storage) (snapshot : Snapshot) : Except Error Unit × Storage :=
  match parseBytes (α := State) snapshot.data with
  | .error _ => (.error (.unreadable .snapshot), s)
  | .ok state =>
    let last := snapshot.about.lastLogId
    let state := { state with lastAppliedIndex := (last.map (·.index)).getD state.lastAppliedIndex }
    let applied : Applied := ⟨last, snapshot.about.lastMembership, state⟩
    let write := .putValues
      [(.applied, writeBytes applied), (.currentSnapshot, writeBytes snapshot)]
    (.ok (), { s with disk := s.disk.write write, state })

end Storage

end ControlPlane
