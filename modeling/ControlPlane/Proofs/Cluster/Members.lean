import ControlPlane.Proofs.Cluster.Leader
import ControlPlane.Proofs.Consensus.Change

/-!
# ControlPlane.Proofs.Cluster.Members

What adding a peer does to the membership.  A change to the membership takes one write, and a second
one if two sets of voters decide after the first (`Cluster.exists_changeMembership`).  A peer is
added as a node, whether it is to vote or not.  So it is a member with its address, and votes in
neither case (`Cluster.addPeer_keeps_voters`); had it been added as a voter, it would vote with all
others (`Cluster.changeMembership_addVoters`).
-/

namespace ControlPlane

open Consensus Storage

namespace Cluster

/-! ## changes -/

section Change

variable {c : Cluster} (hc : c.Legible) {i : Nat} {n : Node} (hn : c.node? i = some n)
include hc hn

/-- A change that is committed is in force. -/
theorem exists_commitChange {retain : Bool} {change : ChangeMembers} {m : Membership}
    (hok : (c.commitChange i retain change).1 = .ok m) :
    n.membership.change retain change = .ok m ∧
      ∃ n', (c.commitChange i retain change).2.node? i = some n' ∧ n'.membership = m := by
  unfold commitChange at hok ⊢
  simp only [hn] at hok ⊢
  split at hok
  · cases hok
  · cases hok
  · next m' _ hchange =>
      split at hok
      · cases hok
      · next done c' hwrite =>
          cases hok
          obtain ⟨n', hn', hm⟩ := exists_write hc hn (congrArg Prod.fst hwrite)
          rw [hwrite] at hn'
          refine ⟨?_, n', hn', hm⟩
          unfold Node.changedMembership at hchange
          split at hchange
          · exact hchange
          · cases hchange

/-- **A change to the membership** is in force when it is done.  Where it leaves more than one set
of voters, it is followed by one that adds nobody. -/
theorem exists_changeMembership {retain : Bool} {change : ChangeMembers} {m : Membership}
    (hok : (c.changeMembership i retain change).1 = .ok m) :
    n.membership.Settles retain change m ∧
      ∃ n', (c.changeMembership i retain change).2.node? i = some n' ∧ n'.membership = m := by
  have hfirst := hc.commitChange i retain change
  unfold changeMembership at hok ⊢
  split at hok
  · cases hok
  · next first c₁ hcommit =>
      rw [hcommit] at hfirst
      obtain ⟨hchange, n₁, hn₁, hm₁⟩ := exists_commitChange hc hn (congrArg Prod.fst hcommit)
      rw [hcommit] at hn₁
      split at hok
      · next hone =>
          cases hok
          rw [if_pos hone]
          exact ⟨⟨m, hchange, by rw [if_pos hone]⟩, n₁, hn₁, hm₁⟩
      · next hmore =>
          obtain ⟨hlast, hn'⟩ := exists_commitChange hfirst hn₁ hok
          rw [hm₁] at hlast
          rw [if_neg hmore]
          exact ⟨⟨first, hchange, by rwa [if_neg hmore]⟩, hn'⟩

/-- A learner is added by one change, and is up to date if that was waited for. -/
theorem exists_addLearner {id : UInt64} {node : Member} {blocking : Bool} {m : Membership}
    (hok : (c.addLearner i id node blocking).1 = .ok m) :
    n.membership.change true (.addNodes (SortedMap.empty.insert id node)) = .ok m ∧
      (blocking = true → (c.addLearner i id node blocking).2.isUpToDate i id = true) ∧
      ∃ n', (c.addLearner i id node blocking).2.node? i = some n' ∧ n'.membership = m := by
  unfold addLearner at hok ⊢
  split at hok
  · cases hok
  · next m' c' hcommit =>
      obtain ⟨hchange, hn'⟩ := exists_commitChange hc hn (congrArg Prod.fst hcommit)
      rw [hcommit] at hn'
      split at hok
      · cases hok
      · next hupToDate =>
          cases hok
          rw [if_neg hupToDate]
          refine ⟨hchange, fun hblocking => ?_, hn'⟩
          simpa [hblocking] using hupToDate

end Change

/-! ## adding a peer -/

variable {c : Cluster} {i : Nat} {n : Node}

/-- **Had a node been added as a voter**, it would vote, and so would all that vote in the last set
of voters.  All other members would stay if no other set decides. -/
theorem changeMembership_addVoters (hc : Reachable c) (hn : c.node? i = some n) {id : UInt64}
    {node : Member} (hid : n.membership.contains id = false) {m : Membership}
    (hok : (c.changeMembership i false
      (.addVoters (SortedMap.empty.insert id node))).1 = .ok m) :
    ∃ n', (c.changeMembership i false
        (.addVoters (SortedMap.empty.insert id node))).2.node? i = some n' ∧
      n'.membership.nodes.get? id = some node ∧
      (∀ j, j ∈ n'.membership.voters ↔ n.membership.lastConfig.contains j = true ∨ j = id) ∧
      (n.membership.configs.length = 1 →
        (∀ j, j ∈ n'.membership.voters ↔ j ∈ n.membership.voters ∨ j = id) ∧
        ∀ j, j ≠ id → n'.membership.nodes.get? j = n.membership.nodes.get? j) := by
  obtain ⟨hsettles, n', hn', rfl⟩ := exists_changeMembership hc.legible hn hok
  obtain ⟨hconfigs, hnodes⟩ := hsettles.addVoters hid
  have hvoters (j : UInt64) :
      j ∈ n'.membership.voters ↔ n.membership.lastConfig.contains j = true ∨ j = id := by
    rw [Membership.mem_voters_of_configs hconfigs, NodeSet.contains_union_iff,
      NodeSet.contains_ofList_iff, List.mem_singleton]
  refine ⟨n', hn', (hnodes id).trans (if_pos rfl), hvoters,
    fun hone => ⟨fun j => ?_, fun j hj => ?_⟩⟩
  · rw [hvoters, Membership.mem_voters_iff, Membership.votes_of_length hone]
  · rw [hnodes, if_neg hj, Membership.remaining_of_length hone]

/-- A peer is added as a node, by a change of the membership if it is to vote, and else as a
learner. -/
theorem exists_addPeer (hc : c.Legible) (hn : c.node? i = some n) {p : Peer}
    (hok : (c.addPeer i p).1 = .ok ()) :
    ∃ n', (c.addPeer i p).2.node? i = some n' ∧
      if p.isVoter then
        n.membership.Settles false (.addNodes (SortedMap.empty.insert p.nodeId (peerMember p)))
          n'.membership
      else
        n.membership.change true (.addNodes (SortedMap.empty.insert p.nodeId (peerMember p)))
            = .ok n'.membership ∧
          (c.addPeer i p).2.isUpToDate i p.nodeId = true := by
  have hregistered := node?_setNode_self hn (n.register p.nodeId p.addr)
  have hlegible := hc.setNode ((hc.node hn).register p.nodeId p.addr) i
  have hreturns {r : Except WriteError Membership} (h : r.map (fun _ => ()) = .ok ()) :
      ∃ m, r = .ok m := by
    cases r with
    | error e => cases h
    | ok m => exact ⟨m, rfl⟩
  unfold addPeer at hok ⊢
  simp only [hn] at hok ⊢
  split at hok
  · next hvoter =>
      obtain ⟨m, hm⟩ := hreturns hok
      obtain ⟨hsettles, n', hn', rfl⟩ := exists_changeMembership hlegible hregistered hm
      simp only [hvoter, if_true]
      exact ⟨n', hn', hsettles⟩
  · next hlearner =>
      obtain ⟨m, hm⟩ := hreturns hok
      obtain ⟨hchange, hupToDate, n', hn', rfl⟩ := exists_addLearner hlegible hregistered hm
      simp only [hlearner, Bool.false_eq_true, if_false]
      exact ⟨n', hn', hchange, hupToDate rfl⟩

/-- **A peer that is added**, in any cluster, is a member with its address, and does not vote, even
if it is to.  A peer that is not to vote is up to date then, and leaves all voters and all other
members as they are.  So does one that is to vote, where one set of voters decides; where more than
one does, only the last is left, and those that voted only in an earlier one are no members any
longer. -/
theorem addPeer_keeps_voters (hc : Reachable c) (hn : c.node? i = some n) {p : Peer}
    (hp : n.membership.contains p.nodeId = false) (hok : (c.addPeer i p).1 = .ok ()) :
    ∃ n', (c.addPeer i p).2.node? i = some n' ∧
      n'.membership.nodes.get? p.nodeId = some (peerMember p) ∧ (peerMember p).addr = p.addr ∧
      p.nodeId ∉ n'.membership.voters ∧
      (p.isVoter = false → (c.addPeer i p).2.isUpToDate i p.nodeId = true) ∧
      (p.isVoter = false ∨ n.membership.configs.length = 1 →
        n'.membership.configs = n.membership.configs ∧
        n'.membership.voters = n.membership.voters ∧
        ∀ id, id ≠ p.nodeId → n'.membership.nodes.get? id = n.membership.nodes.get? id) ∧
      (p.isVoter = true →
        n'.membership.configs = [n.membership.lastConfig] ∧
        ∀ id, id ≠ p.nodeId → n'.membership.nodes.get? id
          = if id ∈ n.membership.voters ∧ n.membership.lastConfig.contains id = false then none
            else n.membership.nodes.get? id) := by
  obtain ⟨n', hn', hadded⟩ := exists_addPeer hc.legible hn hok
  obtain ⟨hsilent, -⟩ := Membership.contains_eq_false_iff.1 hp
  refine ⟨n', hn', ?_⟩
  cases hvoter : p.isVoter with
  | false =>
      rw [hvoter, if_neg Bool.false_ne_true] at hadded
      obtain ⟨hchange, hupToDate⟩ := hadded
      have hm := Membership.change_addNodes hp hchange
      have hvoters : n'.membership.voters = n.membership.voters :=
        Membership.voters_congr (by rw [hm])
      have hnot : p.nodeId ∉ n'.membership.voters := by
        rw [hvoters, Membership.mem_voters_iff, hsilent]
        exact Bool.false_ne_true
      have hothers (id : UInt64) (hid : id ≠ p.nodeId) :
          n'.membership.nodes.get? id = n.membership.nodes.get? id := by simp [hm, hid]
      exact ⟨by simp [hm], rfl, hnot, fun _ => hupToDate, fun _ => ⟨by rw [hm], hvoters, hothers⟩,
        fun hfalse => absurd hfalse Bool.false_ne_true⟩
  | true =>
      rw [hvoter, if_pos rfl] at hadded
      obtain ⟨hconfigs, hnodes⟩ := hadded.addNodes hp
      have hnot : p.nodeId ∉ n'.membership.voters := by
        rw [Membership.mem_voters_of_configs hconfigs]
        intro hlast
        rw [Membership.votes_of_lastConfig hlast] at hsilent
        cases hsilent
      have hothers (id : UInt64) (hid : id ≠ p.nodeId) : n'.membership.nodes.get? id
          = if id ∈ n.membership.voters ∧ n.membership.lastConfig.contains id = false then none
            else n.membership.nodes.get? id := by
        rw [hnodes, if_neg hid, Membership.remaining]
        refine if_congr ?_ rfl rfl
        rw [Bool.and_eq_true, Membership.mem_voters_iff, Bool.not_eq_true']
      refine ⟨(hnodes p.nodeId).trans (if_pos rfl), rfl, hnot,
        fun htrue => absurd htrue.symm Bool.false_ne_true, fun hone => ?_,
        fun _ => ⟨hconfigs, hothers⟩⟩
      have hone := hone.resolve_left (fun htrue => Bool.false_ne_true htrue.symm)
      have hsame : n'.membership.configs = n.membership.configs := by
        rw [hconfigs, ← Membership.configs_of_length hone]
      refine ⟨hsame, Membership.voters_congr hsame, fun id hid => ?_⟩
      rw [hnodes, if_neg hid, Membership.remaining_of_length hone]

/-! ## a second node -/

theorem isQuorum_cons {m : Membership} {id : UInt64} (h : m.configs = [NodeSet.ofList [id]])
    (ids : List UInt64) : m.isQuorum (id :: ids) = true := by
  simp [h, Membership.isQuorum, isMajority, NodeSet.size, NodeSet.toList, NodeSet.ofList,
    SortedMap.ofList, SortedMap.keys, SortedMap.size, SortedMap.insert, SortedMap.empty,
    SortedMap.insertEntry]

/-- The only voter commits whatever it has. -/
theorem outcomes_replicate (hn : c.node? i = some n)
    (hvoters : n.membership.configs = [NodeSet.ofList [n.id]]) :
    (c.replicate i).1 = (n.commit n.lastLogId).1 := by
  unfold replicate
  simp only [hn, isQuorum_cons hvoters, if_true]

/-- A leader that has applied all of its log commits a change that leaves it the only voter. -/
theorem commitChange_of_caughtUp (hn : c.node? i = some n) (hfatal : n.fatal = none)
    (hleads : n.leads = true) {vote : Vote} {stored : StoredMembership} {last : LogId} {t : Table}
    (h : CaughtUp n.storage vote stored last t) (hleader : n.vote.leaderId = last.leaderId)
    (hcommitted : n.committed = some last) (hroom : last.index < last.index + 1) {retain : Bool}
    {change : ChangeMembers} {m : Membership} (hchange : n.changedMembership retain change = .ok m)
    (hvoters : m.configs = [NodeSet.ofList [n.id]]) :
    (c.commitChange i retain change).1 = .ok m := by
  let e : Entry := ⟨⟨last.leaderId, last.index + 1⟩, .membership m⟩
  have hpropose : n.propose (.membership m) = (e.logId, n.appendEntries [e]) := by
    unfold Node.propose
    rw [Node.lastLogId_of_caughtUp h]
    show (LogId.mk n.vote.leaderId _, n.appendEntries [⟨⟨n.vote.leaderId, _⟩, _⟩]) = _
    rw [hleader]
    rfl
  have hstops : stops n.storage.policy e = false := by cases n.storage.policy <;> rfl
  obtain ⟨s', happly, -, -⟩ := h.apply_append_of_not_stops hroom hstops
  have hcommit := Node.commit_appendEntries h hcommitted rfl hroom happly
  have hend : (n.appendEntries [e]).lastLogId = some e.logId := Node.lastLogId_appendEntries h hroom
  have hproposed := node?_setNode_self hn (n.appendEntries [e])
  have hreplicate : ((c.setNode i (n.appendEntries [e])).replicate i).1 = [.applied] :=
    (outcomes_replicate hproposed hvoters).trans (congrArg Prod.fst hcommit)
  have hwrite : (c.write i (.membership m)).1 = .ok (e.logId, .applied) := by
    unfold write
    simp only [hn, hfatal, hleads, if_true, hpropose, hreplicate, hend, List.getLast?_singleton]
  unfold commitChange
  simp only [hn, hfatal, hchange]
  split
  · next hfails =>
      rw [hfails] at hwrite
      cases hwrite
  · rfl

section Second

variable {config : Config} {s : Storage} {index : UInt64} {t : Table}
  (h : CaughtUp s (soleVote config) (soleInitial config) ⟨(soleVote config).leaderId, index⟩ t)

/-- A node that waits for others. -/
def waiting (config : Config) : Node :=
  config.peers.foldl (fun n p => n.register p.nodeId p.addr) (newNode config)

theorem leads_foldl_register (peers : List Peer) (n : Node) :
    (peers.foldl (fun n p => n.register p.nodeId p.addr) n).leads = n.leads := by
  induction peers generalizing n with
  | nil => rfl
  | cons p rest ih => exact ih (n.register p.nodeId p.addr)

include h in
/-- A node that starts beside the only node of a cluster, and has peers, waits. -/
theorem start_soleNode {config' : Config} (hsuits : Suits config'.raft)
    (hpeers : config'.peers.isEmpty = false) (hbootstrap : config'.bootstrap = false) :
    (one config (soleNode config s index)).start config'
      = some ⟨[⟨config, soleNode config s index, true⟩, ⟨config', waiting config', true⟩]⟩ := by
  have hboot : boot config' (Storage.create config'.onDecodeError) = some (newNode config') :=
    boot_eq_some_iff.2 ⟨hsuits, rfl⟩
  have hrun : (Cluster.mk [⟨config, soleNode config s index, true⟩,
      ⟨config', newNode config', true⟩]).run 1
        = ⟨[⟨config, soleNode config s index, true⟩, ⟨config', waiting config', true⟩]⟩ := by
    show (if config'.peers.isEmpty then _ else if config'.bootstrap then _ else _) = _
    rw [hpeers, hbootstrap]
    rfl
  have hwaits : (waiting config').leads = false := leads_foldl_register _ _
  have hsettle : (Cluster.mk [⟨config, soleNode config s index, true⟩,
      ⟨config', waiting config', true⟩]).settle
        = ⟨[⟨config, soleNode config s index, true⟩, ⟨config', waiting config', true⟩]⟩ := by
    refine settle_of_replicate fun i site hsite hleads => ?_
    match i, hsite with
    | 0, _ => rw [replicate_soleNode rfl h]
    | 1, hsite =>
        cases hsite
        rw [hwaits] at hleads
        cases hleads
  show (do
    let n ← boot config' (Storage.create config'.onDecodeError)
    return ((Cluster.mk [⟨config, soleNode config s index, true⟩,
      ⟨config', n, true⟩]).run 1).settle) = _
  rw [hboot]
  exact congrArg some ((congrArg settle hrun).trans hsettle)

end Second

/-- The settings of a second node, which has the first as a peer. -/
def secondConfig : Config :=
  { Config.default with
    nodeId := 2
    advertiseAddr := some "n2:1"
    peers := [⟨1, "127.0.0.1:10710", true⟩] }

/-- The second node as a peer that is to vote. -/
def second : Peer := ⟨2, "n2:1", true⟩

/-- The first node leads a cluster of its own, and the second waits. -/
def pair (s : Storage) : Cluster :=
  ⟨[⟨Config.default, soleNode Config.default s 1, true⟩,
    ⟨secondConfig, waiting secondConfig, true⟩]⟩

theorem addPeer_pair {s : Storage} {t : Table}
    (h : CaughtUp s (soleVote Config.default) (soleInitial Config.default)
      ⟨(soleVote Config.default).leaderId, 1⟩ t) : ((pair s).addPeer 0 second).1 = .ok () := by
  let n : Node := (soleNode Config.default s 1).register second.nodeId second.addr
  let m : Membership := ⟨[NodeSet.ofList [1]],
    (soleInitial Config.default).membership.nodes.insert second.nodeId (peerMember second)⟩
  have hregistered : ((pair s).setNode 0 n).node? 0 = some n := rfl
  have hchange : n.changedMembership false
      (.addNodes (SortedMap.empty.insert second.nodeId (peerMember second))) = .ok m := rfl
  have hleads : n.leads = true :=
    show (soleNode Config.default s 1).leads = true from leads_soleNode
  have hcommit := commitChange_of_caughtUp hregistered rfl hleads h rfl rfl (by decide) hchange rfl
  have hmembership : (((pair s).setNode 0 n).changeMembership 0 false
      (.addNodes (SortedMap.empty.insert second.nodeId (peerMember second)))).1 = .ok m := by
    unfold changeMembership
    split
    · next hfails =>
        rw [hfails] at hcommit
        cases hcommit
    · next m' _ hm' =>
        rw [hm'] at hcommit
        cases hcommit
        rfl
  exact congrArg (Except.map fun _ => ()) hmembership

/-- The first node reaches the second, and adds it. -/
theorem exists_pair : ∃ s, Reachable (pair s) ∧ (pair s).reach? second.addr = some 1 ∧
    ((pair s).addPeer 0 second).1 = .ok () := by
  obtain ⟨c, hc⟩ := exists_start (by decide : Suits Config.default.raft)
  obtain @⟨s, -, -, -, storage⟩ := single_of_start rfl hc
  have hpair : (one Config.default (soleNode Config.default s 1)).start secondConfig
      = some (pair s) := start_soleNode storage (by decide) rfl rfl
  have hfirst : (Config.default.effectiveAdvertiseAddr == second.addr) = false := by decide +kernel
  have hsecond : (secondConfig.effectiveAdvertiseAddr == second.addr) = true := by decide
  have hreach : (pair s).reach? second.addr = some 1 := by
    simp only [reach?, pair, List.findIdx?_cons, hfirst, hsecond, Bool.and_false, Bool.and_true,
      Bool.true_and]
    rfl
  exact ⟨s, (Reachable.empty.start hc).start hpair, hreach,
    addPeer_pair storage⟩

/-- A second node that is added to vote is a member, and the first is still the only voter. -/
theorem addPeer_keeps_voters_second :
    ∃ s n', ((pair s).addPeer 0 second).1 = .ok () ∧
      ((pair s).addPeer 0 second).2.node? 0 = some n' ∧
      n'.membership.nodes.get? 2 = some ⟨"n2:1", "node-2"⟩ ∧ n'.membership.voters = [1] := by
  obtain ⟨s, hreachable, -, hok⟩ := exists_pair
  have hn : (pair s).node? 0 = some (soleNode Config.default s 1) := rfl
  obtain ⟨n', hn', hmember, -, -, -, hsame, -⟩ := addPeer_keeps_voters hreachable hn rfl hok
  obtain ⟨-, hvoters, -⟩ := hsame (.inr rfl)
  exact ⟨s, n', hok, hn', hmember.trans (by decide +kernel), hvoters⟩

/-- Though it is no member yet, is to vote and is reached, and the leader adds it, the second node
is not among the voters: they are not those that there were and the second node. -/
theorem addPeer_ne_voter_second :
    second.isVoter = true ∧ ∃ s n', Reachable (pair s) ∧
      (pair s).node? 0 = some (soleNode Config.default s 1) ∧
      (soleNode Config.default s 1).leads = true ∧
      (soleNode Config.default s 1).membership.contains second.nodeId = false ∧
      (pair s).reach? second.addr = some 1 ∧ ((pair s).addPeer 0 second).1 = .ok () ∧
      ((pair s).addPeer 0 second).2.node? 0 = some n' ∧
      ¬ ∀ id, id ∈ n'.membership.voters
        ↔ id ∈ (soleNode Config.default s 1).membership.voters ∨ id = second.nodeId := by
  obtain ⟨s, hreachable, hreach, hok⟩ := exists_pair
  have hn : (pair s).node? 0 = some (soleNode Config.default s 1) := rfl
  obtain ⟨n', hn', hadded⟩ := exists_addPeer hreachable.legible hn hok
  obtain ⟨hconfigs, -⟩ := Membership.Settles.addNodes rfl hadded
  have hvoters : n'.membership.voters = [1] := by
    rw [Membership.voters, hconfigs]
    rfl
  refine ⟨rfl, s, n', hreachable, hn, leads_soleNode, rfl, hreach, hok, hn', fun hall => ?_⟩
  have hsecond := (hall second.nodeId).2 (.inr rfl)
  rw [hvoters] at hsecond
  exact absurd hsecond (by decide)

end Cluster

end ControlPlane
