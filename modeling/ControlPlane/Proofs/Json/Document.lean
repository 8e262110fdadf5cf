import ControlPlane.Proofs.Config.Form
import ControlPlane.Proofs.Consensus.Form
import ControlPlane.Proofs.Table.WellFormed
import ControlPlane.Storage

/-!
# ControlPlane.Proofs.Json.Document

The documents that nodes, clients and operators exchange as JSON, and the law that holds of all of
them: a document is what its compact text is read as (`Document.lossless`).  Reading a text and
writing what was read is therefore a normal form of texts, and a state that was written comes back
as it was, whether it is restored in place or installed from a snapshot.
-/

namespace ControlPlane

open Json

/-- The kinds of documents. -/
inductive Document
  | state
  | table
  | storageGroup
  | schema
  | replicaSet
  | location
  | endpoint
  | groupId
  | groupType
  | view
  | peer
  | command
  | outcome
  | rejection
  | commandKind
  | decodePolicy
  | member
  | config
  deriving DecidableEq, Repr

namespace Document

/-- What a document of a kind says.  A command is kept in its encoded form. -/
def Value : Document → Type
  | .state => State
  | .table => Table
  | .storageGroup => StorageGroupPartition
  | .schema => StorageGroupSchema
  | .replicaSet => ReplicaSet
  | .location => Location
  | .endpoint => Endpoint
  | .groupId => GroupId
  | .groupType => GroupType
  | .view => View
  | .peer => Peer
  | .command => Bytes
  | .outcome => Outcome
  | .rejection => Rejection
  | .commandKind => CommandKind
  | .decodePolicy => DecodePolicy
  | .member => Member
  | .config => Config

instance (d : Document) : Form d.Value :=
  match d with
  | .state => inferInstanceAs (Form State)
  | .table => inferInstanceAs (Form Table)
  | .storageGroup => inferInstanceAs (Form StorageGroupPartition)
  | .schema => inferInstanceAs (Form StorageGroupSchema)
  | .replicaSet => inferInstanceAs (Form ReplicaSet)
  | .location => inferInstanceAs (Form Location)
  | .endpoint => inferInstanceAs (Form Endpoint)
  | .groupId => inferInstanceAs (Form GroupId)
  | .groupType => inferInstanceAs (Form GroupType)
  | .view => inferInstanceAs (Form View)
  | .peer => inferInstanceAs (Form Peer)
  | .command => inferInstanceAs (Form (List UInt8))
  | .outcome => inferInstanceAs (Form Outcome)
  | .rejection => inferInstanceAs (Form Rejection)
  | .commandKind => inferInstanceAs (Form CommandKind)
  | .decodePolicy => inferInstanceAs (Form DecodePolicy)
  | .member => inferInstanceAs (Form Member)
  | .config => inferInstanceAs (Form Config)

instance (d : Document) : LawfulForm d.Value :=
  match d with
  | .state => inferInstanceAs (LawfulForm State)
  | .table => inferInstanceAs (LawfulForm Table)
  | .storageGroup => inferInstanceAs (LawfulForm StorageGroupPartition)
  | .schema => inferInstanceAs (LawfulForm StorageGroupSchema)
  | .replicaSet => inferInstanceAs (LawfulForm ReplicaSet)
  | .location => inferInstanceAs (LawfulForm Location)
  | .endpoint => inferInstanceAs (LawfulForm Endpoint)
  | .groupId => inferInstanceAs (LawfulForm GroupId)
  | .groupType => inferInstanceAs (LawfulForm GroupType)
  | .view => inferInstanceAs (LawfulForm View)
  | .peer => inferInstanceAs (LawfulForm Peer)
  | .command => inferInstanceAs (LawfulForm (List UInt8))
  | .outcome => inferInstanceAs (LawfulForm Outcome)
  | .rejection => inferInstanceAs (LawfulForm Rejection)
  | .commandKind => inferInstanceAs (LawfulForm CommandKind)
  | .decodePolicy => inferInstanceAs (LawfulForm DecodePolicy)
  | .member => inferInstanceAs (LawfulForm Member)
  | .config => inferInstanceAs (LawfulForm Config)

/-- The text of what a text is read as. -/
def normalize (d : Document) (s : String) : Except Fault String :=
  (parse s : Except Fault d.Value).map write

/-- A text that was written is not changed by reading and writing it again. -/
theorem normalize_write (d : Document) (v : d.Value) : d.normalize (write v) = .ok (write v) := by
  rw [normalize, parse_write]
  rfl

/-- Texts are brought to a normal form: what was read and written stays as it is. -/
theorem normalize_idempotent (d : Document) (s : String) :
    d.normalize s >>= d.normalize = d.normalize s := by
  rw [normalize]
  cases (parse s : Except Fault d.Value) with
  | error fault => rfl
  | ok v => exact d.normalize_write v

end Document

/-- A state that was written and is installed comes back, at the position that the snapshot
claims. -/
theorem Storage.installSnapshot_writeBytes (s : Storage) (about : Consensus.SnapshotMeta)
    (state : State) :
    (s.installSnapshot ⟨about, writeBytes state⟩).1 = .ok ()
      ∧ (s.installSnapshot ⟨about, writeBytes state⟩).2.state.table = state.table := by
  rw [installSnapshot, parseBytes_writeBytes]
  exact ⟨rfl, rfl⟩

/-- **Documents are lossless.**  A document of any kind is what its text, and the bytes of that, are
read as; so reading and writing a text twice is as good as once.  A state that is written, and then
restored or installed from a snapshot, has the same table as before, down to the order in its
lists. -/
theorem Document.lossless :
    (∀ (d : Document) (v : d.Value),
        parse (write v) = .ok v ∧ parseBytes (writeBytes v) = .ok v)
      ∧ (∀ (d : Document) (s : String), d.normalize s >>= d.normalize = d.normalize s)
      ∧ (∀ (r : State.Run) (age : Nat), r.next (.restore age) = (r.states[age]?).getD r.state)
      ∧ ∀ (s : Storage) (about : Consensus.SnapshotMeta) (state : State),
        (s.installSnapshot ⟨about, writeBytes state⟩).1 = .ok ()
          ∧ (s.installSnapshot ⟨about, writeBytes state⟩).2.state.table = state.table :=
  ⟨fun _ v => ⟨parse_write v, parseBytes_writeBytes v⟩, Document.normalize_idempotent,
    State.Run.next_restore, Storage.installSnapshot_writeBytes⟩

end ControlPlane
