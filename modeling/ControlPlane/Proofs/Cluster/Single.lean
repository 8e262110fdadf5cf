import ControlPlane.Cluster
import ControlPlane.Proofs.Command.RoundTrip
import ControlPlane.Proofs.Storage.Tail

/-!
# ControlPlane.Proofs.Cluster.Single

A cluster of one node.  The node that starts without peers begins a cluster, votes for itself, and
leads; what it writes it commits and applies at once, so all of its log is always applied
(`Single`).  A command that is submitted is the next entry of the log and is applied to the table
(`Single.submit_eq`), and starting the node again changes nothing (`Single.restart_eq`).
-/

namespace ControlPlane

open Consensus Storage

namespace Node

/-! ## committing -/

/-- Whoever commits stays who it is, with the membership that it has. -/
theorem commit_keeps (n : Node) (upTo : Option LogId) :
    (n.commit upTo).2.id = n.id ∧ (n.commit upTo).2.membership = n.membership := by
  have hmemberships (m : Memberships) : (m.commit upTo).effective = m.effective := by
    unfold Memberships.commit
    split <;> rfl
  unfold commit
  split
  · exact ⟨rfl, rfl⟩
  · split
    · simp only
      split
      · exact ⟨rfl, congrArg (·.membership) (hmemberships n.memberships)⟩
      · split <;> exact ⟨rfl, congrArg (·.membership) (hmemberships n.memberships)⟩
    · exact ⟨rfl, rfl⟩

/-- What is committed is read from the log and applied. -/
theorem commit_of_apply {n : Node} {last : LogId} {es : List Entry} {outcomes : List Outcome}
    {s : Storage} (hbehind : compareLast n.committed (some last) = .lt)
    (hentries : n.storage.entries (.included (nextIndex n.committed)) (.included last.index)
      = .ok es) (happly : n.storage.apply es = (.ok outcomes, s)) :
    n.commit (some last) = (outcomes,
      { n with committed := some last, memberships := n.memberships.commit (some last),
               storage := s }) := by
  unfold commit
  simp only [if_pos hbehind, hentries, happly]

/-- What is committed already is not committed again. -/
theorem commit_of_eq {n : Node} {upTo : Option LogId} (h : compareLast n.committed upTo = .eq) :
    n.commit upTo = ([], n) := by
  unfold commit
  split
  · rfl
  · rw [if_neg (by rw [h]; decide)]

end Node

theorem Consensus.LogId.compare_self (a : LogId) : a.compare a = .eq := by
  unfold LogId.compare LeaderId.compare
  simp

theorem Consensus.LogId.compare_of_lt {a b : LogId} (hleader : a.leaderId = b.leaderId)
    (h : a.index < b.index) : a.compare b = .lt := by
  unfold LogId.compare LeaderId.compare
  rw [hleader]
  have hindex : Ord.compare a.index b.index = .lt := compareOfLessAndEq_eq_lt.2 h
  simp [hindex]

namespace Node

section CaughtUp

variable {n : Node} {vote : Vote} {m : StoredMembership} {last : LogId} {t : Table}
  (h : CaughtUp n.storage vote m last t)
include h

theorem lastLogId_of_caughtUp : n.lastLogId = some last := by
  obtain ⟨purged, hlogState⟩ := h.exists_logState
  rw [lastLogId, hlogState]
  rfl

variable {e : Entry}

theorem lastLogId_appendEntries (hindex : last.index < e.logId.index) :
    (n.appendEntries [e]).lastLogId = some e.logId := by
  obtain ⟨purged, hlogState⟩ := h.exists_logState_append hindex
  show (n.storage.append [e]).logState.toOption.bind (·.last) = _
  rw [hlogState]
  rfl

/-- **The next entry**: a node that has committed all of its log commits just that entry, and so
applies it. -/
theorem commit_appendEntries (hcommitted : n.committed = some last)
    (hid : e.logId = ⟨last.leaderId, last.index + 1⟩) (hroom : last.index < last.index + 1)
    {outcomes : List Outcome} {s : Storage}
    (happly : (n.storage.append [e]).apply [e] = (.ok outcomes, s)) :
    (n.appendEntries [e]).commit (n.appendEntries [e]).lastLogId
      = (outcomes, { n.appendEntries [e] with
          committed := some e.logId
          memberships := (n.appendEntries [e]).memberships.commit (some e.logId)
          storage := s }) := by
  have hindex : last.index < e.logId.index := by
    rw [hid]
    exact hroom
  have hbehind : compareLast (n.appendEntries [e]).committed (some e.logId) = .lt := by
    show compareLast n.committed _ = _
    rw [hcommitted]
    exact LogId.compare_of_lt (by rw [hid]) hindex
  have hnext : nextIndex (n.appendEntries [e]).committed = e.logId.index := by
    show nextIndex n.committed = _
    rw [hcommitted, hid]
    rfl
  rw [lastLogId_appendEntries h hindex]
  refine commit_of_apply hbehind ?_ happly
  rw [hnext]
  exact h.entries_append

end CaughtUp

end Node

namespace Cluster

/-- A node that is put where it is changes nothing. -/
theorem setNode_of_node? {c : Cluster} {i : Nat} {n : Node} (h : c.node? i = some n) :
    c.setNode i n = c := by
  obtain ⟨site, hsite, rfl⟩ := Option.map_eq_some_iff.1 h
  refine congrArg Cluster.mk (List.ext_getElem? fun j => ?_)
  rw [List.getElem?_modify]
  split
  · next hj =>
      rw [← hj, hsite]
      rfl
  · exact Option.map_id'

/-! ## one node -/

/-- A cluster in which one node runs. -/
def one (config : Config) (n : Node) : Cluster := ⟨[⟨config, n, true⟩]⟩

@[simp] theorem node?_one (config : Config) (n : Node) : (one config n).node? 0 = some n := rfl

@[simp] theorem setNode_one (config : Config) (n n' : Node) :
    (one config n).setNode 0 n' = one config n' := rfl

/-- The membership of a cluster of one node. -/
def soleMembership (id : UInt64) (self : Member) : Membership :=
  ⟨[NodeSet.ofList [id]], SortedMap.empty.insert id self⟩

section Sole

variable {n : Node} (h : n.membership = soleMembership n.id n.self)
include h

theorem others_of_sole : others n = [] := by
  rw [others, h]
  simp [soleMembership, SortedMap.keys, SortedMap.insert, SortedMap.empty, SortedMap.insertEntry]

theorem isQuorum_of_sole : n.membership.isQuorum [n.id] = true := by
  rw [h]
  simp [soleMembership, Membership.isQuorum, isMajority, NodeSet.size, NodeSet.toList,
    NodeSet.ofList, SortedMap.ofList, SortedMap.keys, SortedMap.size, SortedMap.insert,
    SortedMap.empty, SortedMap.insertEntry]

/-- A node that is alone commits what it has. -/
theorem replicate_one (config : Config) :
    (one config n).replicate 0
      = ((n.commit n.lastLogId).1, one config (n.commit n.lastLogId).2) := by
  obtain ⟨hid, hmembership⟩ := n.commit_keeps n.lastLogId
  have hothers : others (n.commit n.lastLogId).2 = [] := by
    rw [others, hmembership, hid]
    exact others_of_sole h
  unfold replicate
  simp only [node?_one, others_of_sole h, offerAll, isQuorum_of_sole h, if_true, setNode_one,
    hothers]

/-- If there is nothing to commit, nothing happens. -/
theorem replicate_of_sole {c : Cluster} {i : Nat} (hn : c.node? i = some n)
    (hlast : compareLast n.committed n.lastLogId = .eq) : c.replicate i = ([], c) := by
  unfold replicate
  simp only [hn, others_of_sole h, offerAll, isQuorum_of_sole h, if_true, Node.commit_of_eq hlast,
    setNode_of_node? hn]

end Sole

/-! ## the only node -/

/-- How the node of some settings presents itself. -/
def selfOf (config : Config) : Member :=
  ⟨config.effectiveAdvertiseAddr, config.hostname.getD defaultHostname⟩

/-- The vote of a node for itself, with which it leads since its first term. -/
def soleVote (config : Config) : Vote := ⟨⟨1, config.nodeId⟩, true⟩

/-- The membership of a cluster of one node, with the entry that it begins with. -/
def soleInitial (config : Config) : StoredMembership :=
  ⟨some ⟨⟨0, 0⟩, 0⟩, soleMembership config.nodeId (selfOf config)⟩

/-- The only node of its cluster, which has applied its log up to an index. -/
def soleNode (config : Config) (s : Storage) (index : UInt64) : Node where
  id := config.nodeId
  self := selfOf config
  addresses := SortedMap.empty.insert config.nodeId config.effectiveAdvertiseAddr
  storage := s
  vote := soleVote config
  committed := some ⟨(soleVote config).leaderId, index⟩
  accepted := (⟨0, 0⟩, none)
  memberships := ⟨soleInitial config, soleInitial config⟩
  incoming := none
  fatal := none

/-- The intervals of some settings suit the consensus. -/
def Suits (t : Timing) : Prop :=
  t.heartbeatIntervalMs < t.electionTimeoutMinMs ∧ t.electionTimeoutMinMs < t.electionTimeoutMaxMs

instance (t : Timing) : Decidable (Suits t) := inferInstanceAs (Decidable (_ ∧ _))

/-- A cluster of the only node, which has applied all of its log: up to this index, to this
table. -/
inductive Single (config : Config) (t : Table) (index : UInt64) : Cluster → Prop
  | mk {s : Storage} (peers : config.peers = []) (suits : Suits config.raft)
    (policy : s.policy = config.onDecodeError)
    (storage : CaughtUp s (soleVote config) (soleInitial config)
      ⟨(soleVote config).leaderId, index⟩ t) :
    Single config t index (one config (soleNode config s index))

section Node

variable {config : Config} {s : Storage} {index : UInt64} {t : Table}

theorem membership_soleNode :
    (soleNode config s index).membership
      = soleMembership (soleNode config s index).id (soleNode config s index).self := rfl

theorem leads_soleNode : (soleNode config s index).leads = true := by
  simp [Node.leads, Node.leader?, soleNode, soleVote]

/-- Wherever it is, the only node has nothing left to commit. -/
theorem replicate_soleNode {c : Cluster} {i : Nat} (hn : c.node? i = some (soleNode config s index))
    (h : CaughtUp s (soleVote config) (soleInitial config) ⟨(soleVote config).leaderId, index⟩ t) :
    c.replicate i = ([], c) := by
  refine replicate_of_sole membership_soleNode hn ?_
  rw [Node.lastLogId_of_caughtUp h]
  exact LogId.compare_self _

end Node

/-! ## writing -/

/-- The next entry of the only node, for bytes. -/
def nextEntry (config : Config) (index : UInt64) (bytes : Bytes) : Entry :=
  ⟨⟨(soleVote config).leaderId, index + 1⟩, .normal bytes⟩

theorem commit_soleNode {config : Config} {s : Storage} {index : UInt64} {t : Table}
    (h : CaughtUp s (soleVote config) (soleInitial config) ⟨(soleVote config).leaderId, index⟩ t)
    (hroom : index < index + 1) {bytes : Bytes} {c : Command}
    (hdecode : Command.decode bytes = .ok c) :
    ∃ s', s'.policy = s.policy ∧
      CaughtUp s' (soleVote config) (soleInitial config)
        ⟨(soleVote config).leaderId, index + 1⟩ (t.next c) ∧
      ((soleNode config s index).appendEntries [nextEntry config index bytes]).commit
          ((soleNode config s index).appendEntries [nextEntry config index bytes]).lastLogId
        = ([outcomeOf (t.apply c)], soleNode config s' (index + 1)) := by
  obtain ⟨s', happly, hpolicy, hcaught⟩ :=
    h.apply_append (e := nextEntry config index bytes) hroom rfl hdecode
  refine ⟨s', hpolicy, hcaught, ?_⟩
  have hmemberships : Memberships.commit ⟨soleInitial config, soleInitial config⟩
      (some (nextEntry config index bytes).logId) = ⟨soleInitial config, soleInitial config⟩ := by
    unfold Memberships.commit
    split <;> rfl
  have hcommit := Node.commit_appendEntries (n := soleNode config s index) h rfl rfl hroom happly
  refine hcommit.trans (Prod.ext rfl ?_)
  exact congrArg (fun m => { soleNode config s' (index + 1) with memberships := m }) hmemberships

/-- **A command that is submitted** to the only node is applied to the table as the next entry of
the log, if it can be written: it takes effect or is refused, for the reason that the table gives,
and is never passed over. -/
theorem Single.submit_eq {config : Config} {t : Table} {index : UInt64} {c : Cluster}
    (h : Single config t index c) (hroom : index < index + 1) {command : Command}
    (hfits : command.Fits) :
    (c.submit 0 command).1
        = (match t.apply command with
          | .ok _ => .ok ()
          | .error reason => .error (.rejected reason)) ∧
      Single config (t.next command) (index + 1) (c.submit 0 command).2 := by
  obtain @⟨s, peers, suits, policy, storage⟩ := h
  obtain ⟨bytes, hbytes⟩ := Command.exists_encode_iff_fits.2 hfits
  obtain ⟨s', hpolicy, hcaught, hcommit⟩ :=
    commit_soleNode storage hroom (Command.decode_eq_ok_iff_encode.2 hbytes)
  have hreplicate := replicate_one (n := (soleNode config s index).appendEntries
    [nextEntry config index bytes]) membership_soleNode config
  rw [hcommit] at hreplicate
  have hpropose : (soleNode config s index).propose (.normal bytes)
      = (⟨(soleVote config).leaderId, index + 1⟩,
        (soleNode config s index).appendEntries [nextEntry config index bytes]) := by
    unfold Node.propose
    rw [Node.lastLogId_of_caughtUp storage]
    rfl
  have hwrite : (one config (soleNode config s index)).write 0 (.normal bytes)
      = (.ok (⟨(soleVote config).leaderId, index + 1⟩, outcomeOf (t.apply command)),
        one config (soleNode config s' (index + 1))) := by
    have hend := Node.lastLogId_appendEntries (n := soleNode config s index) storage
      (e := nextEntry config index bytes) hroom
    unfold write
    simp only [node?_one, leads_soleNode, if_true, hpropose, setNode_one, hreplicate, hend]
    exact if_pos rfl
  unfold submit
  simp only [hbytes, hwrite, outcomeOf]
  cases t.apply command with
  | ok t' => exact ⟨rfl, .mk peers suits (hpolicy.trans policy) hcaught⟩
  | error reason => exact ⟨rfl, .mk peers suits (hpolicy.trans policy) hcaught⟩

/-! ## starting -/

/-- Where no leader has anything left to do, nothing happens. -/
theorem settle_of_replicate {c : Cluster}
    (h : ∀ i s, c.sites[i]? = some s → s.node.leads = true → (c.replicate i).2 = c) :
    c.settle = c := by
  refine List.foldl_fixed' (fun i => ?_) _
  split
  · next site hsite =>
      split
      · next hleads => exact h i site hsite (Bool.and_eq_true_iff.1 hleads).2
      · rfl
  · rfl

theorem Single.settle_eq {config : Config} {t : Table} {index : UInt64} {c : Cluster}
    (h : Single config t index c) : c.settle = c := by
  obtain ⟨peers, suits, policy, storage⟩ := h
  refine settle_of_replicate fun i s hs _ => ?_
  cases i with
  | zero => rw [replicate_soleNode rfl storage]
  | succ i => cases hs

theorem boot_eq_some_iff {config : Config} {s : Storage} {n : Node} :
    boot config s = some n
      ↔ Suits config.raft ∧ Node.resume config.nodeId (selfOf config) s = .ok n := by
  show (if Suits config.raft then (Node.resume config.nodeId (selfOf config) s).toOption else none)
    = some n ↔ _
  by_cases h : Suits config.raft
  · rw [if_pos h]
    cases Node.resume config.nodeId (selfOf config) s <;> simp [h, Except.toOption]
  · simp [h]

/-- A node without peers is a cluster of its own. -/
theorem run_one {config : Config} (hpeers : config.peers = []) (n : Node) :
    (one config n).run 0 = (one config n).initializeNode 0 [] := by
  show (if config.peers.isEmpty then _ else _) = _
  rw [hpeers]
  rfl

/-- A node that has just begun a cluster of its own and leads it. -/
def ledNode (config : Config) : Node where
  id := config.nodeId
  self := selfOf config
  addresses := SortedMap.empty.insert config.nodeId config.effectiveAdvertiseAddr
  storage := led config.onDecodeError (soleMembership config.nodeId (selfOf config))
    ⟨(soleVote config).leaderId, false⟩ (soleVote config)
  vote := soleVote config
  committed := none
  accepted := (⟨0, 0⟩, none)
  memberships := ⟨StoredMembership.initial, soleInitial config⟩
  incoming := none
  fatal := none

/-- When it commits, it has applied all that is there. -/
theorem commit_ledNode (config : Config) :
    ∃ s, s.policy = config.onDecodeError ∧
      CaughtUp s (soleVote config) (soleInitial config) ⟨(soleVote config).leaderId, 1⟩
        Table.empty ∧
      ((ledNode config).commit (ledNode config).lastLogId).2 = soleNode config s 1 := by
  obtain ⟨s, happly, hpolicy, hcaught⟩ := apply_led config.onDecodeError
    (soleMembership config.nodeId (selfOf config)) ⟨(soleVote config).leaderId, false⟩
    (soleVote config)
  refine ⟨s, hpolicy, hcaught, ?_⟩
  have hlast : (ledNode config).lastLogId = some ⟨(soleVote config).leaderId, 1⟩ := by
    obtain ⟨purged, hlogState⟩ := exists_logState_of_endsAt
      (shows_led config.onDecodeError (soleMembership config.nodeId (selfOf config))
        ⟨(soleVote config).leaderId, false⟩ (soleVote config)) (endsAt_led _ _)
    show (led _ _ _ _).logState.toOption.bind (·.last) = _
    rw [hlogState]
    rfl
  have hmemberships : Memberships.commit ⟨StoredMembership.initial, soleInitial config⟩
      (some ⟨(soleVote config).leaderId, 1⟩) = ⟨soleInitial config, soleInitial config⟩ := rfl
  have hbehind : compareLast (ledNode config).committed
      (some ⟨(soleVote config).leaderId, 1⟩) = .lt := rfl
  have hcommit := Node.commit_of_apply hbehind (entries_led _ _ _ _) happly
  rw [hlast, hcommit]
  exact congrArg (fun m => { soleNode config s 1 with memberships := m }) hmemberships

/-- A node on a new disk. -/
def newNode (config : Config) : Node :=
  { ledNode config with
    storage := Storage.create config.onDecodeError
    vote := Vote.initial
    memberships := ⟨StoredMembership.initial, StoredMembership.initial⟩ }

/-- A node that has begun a cluster and stands for election. -/
def candidate (config : Config) : Node :=
  { ledNode config with
    storage := begun config.onDecodeError (soleMembership config.nodeId (selfOf config))
      ⟨(soleVote config).leaderId, false⟩
    vote := ⟨(soleVote config).leaderId, false⟩ }

theorem lead_candidate (config : Config) : (candidate config).lead = ledNode config := by
  obtain ⟨purged, hlogState⟩ := exists_logState_of_endsAt
    (shows_begun config.onDecodeError (soleMembership config.nodeId (selfOf config))
      ⟨(soleVote config).leaderId, false⟩ (soleVote config)) (LogView.endsAt_first _)
  have hlast : ((candidate config).hold (soleVote config)).lastLogId = some ⟨⟨0, 0⟩, 0⟩ := by
    show (Storage.saveVote _ _).logState.toOption.bind (·.last) = _
    rw [candidate, hlogState]
    rfl
  show (((candidate config).hold (soleVote config)).propose .blank).2 = _
  unfold Node.propose
  rw [hlast]
  rfl

/-- The cluster begins with the vote of the node for itself. -/
theorem initializeNode_newNode (config : Config) :
    (one config (newNode config)).initializeNode 0 []
      = ((one config (ledNode config)).replicate 0).2 := by
  have helect : ((newNode config).initializeLog (initialMembership (newNode config) [])).elect
      = candidate config := rfl
  have hothers : others (candidate config) = [] := others_of_sole rfl
  have hquorum : (candidate config).membership.isQuorum [(candidate config).id] = true :=
    isQuorum_of_sole rfl
  have hnew : (newNode config).isNew = true := rfl
  unfold initializeNode
  simp only [node?_one, List.filter_nil, List.foldl_nil, hnew, if_true, helect, setNode_one,
    hothers, requestVotes, hquorum, lead_candidate]

/-- A node that starts without peers on a new disk begins a cluster of its own and leads it. -/
theorem single_of_start {config : Config} (hpeers : config.peers = []) {c : Cluster}
    (h : Cluster.empty.start config = some c) : Single config Table.empty 1 c := by
  obtain ⟨n, hboot, hc⟩ := Option.bind_eq_some_iff.1 h
  obtain ⟨hsuits, hresume⟩ := boot_eq_some_iff.1 hboot
  have hn : n = newNode config := (Except.ok.inj hresume).symm
  have hbegun : (one config n).initializeNode 0 []
      = ((one config (ledNode config)).replicate 0).2 := by
    rw [hn, initializeNode_newNode]
  have hled := replicate_one (n := ledNode config) rfl config
  obtain ⟨s, hpolicy, hcaught, hcommit⟩ := commit_ledNode config
  have hsingle : Single config Table.empty 1 (one config (soleNode config s 1)) :=
    .mk hpeers hsuits hpolicy hcaught
  have hsettled : ((one config n).run 0).settle = one config (soleNode config s 1) := by
    rw [run_one hpeers, hbegun, hled, hcommit]
    exact hsingle.settle_eq
  cases hc
  exact hsettled ▸ hsingle

/-- A node whose intervals suit the consensus starts. -/
theorem exists_start {config : Config} (hsuits : Suits config.raft) :
    ∃ c, Cluster.empty.start config = some c := by
  have hboot : boot config (Storage.create config.onDecodeError) = some (newNode config) :=
    boot_eq_some_iff.2 ⟨hsuits, rfl⟩
  exact ⟨((one config (newNode config)).run 0).settle, by rw [start, hboot]; rfl⟩

/-- **Starting again** changes nothing: all that the node holds it finds on its disk. -/
theorem Single.restart_eq {config : Config} {t : Table} {index : UInt64} {c : Cluster}
    (h : Single config t index c) (hroom : index < index + 1) : c.restart 0 = some c := by
  have hsettle := h.settle_eq
  obtain @⟨s, peers, suits, policy, storage⟩ := h
  have hopen : Storage.open? s.disk config.onDecodeError = some s := by
    rw [storage.sound.open?_eq, ← policy]
  have hresume : Node.resume config.nodeId (selfOf config) s = .ok (soleNode config s index) := by
    unfold Node.resume Storage.applied
    rw [storage.vote, storage.applied]
    simp only [Bind.bind, Except.bind, Pure.pure, Except.pure, Node.nextIndex,
      storage.entries_behind hroom]
    rfl
  have hboot : boot config s = some (soleNode config s index) :=
    boot_eq_some_iff.2 ⟨suits, hresume⟩
  have hnew : (soleNode config s index).isNew = false := by
    rw [Node.isNew, Node.lastLogId_of_caughtUp storage]
    rfl
  have hbegun : (one config (soleNode config s index)).initializeNode 0 []
      = one config (soleNode config s index) := by
    unfold initializeNode
    simp only [node?_one, List.filter_nil, List.foldl_nil, hnew, Bool.false_eq_true, if_false,
      setNode_one]
  have hrestart : (one config (soleNode config s index)).restart 0
      = some ((one config (soleNode config s index)).run 0).settle := by
    show (do
      let s ← Storage.open? s.disk config.onDecodeError
      let n ← boot config s
      return ((one config n).run 0).settle) = _
    rw [hopen, Option.bind_eq_bind, Option.bind_some, hboot]
    rfl
  rw [hrestart, run_one peers, hbegun, hsettle]

end Cluster

end ControlPlane
