import ControlPlane.Cluster.Serve
import ControlPlane.Proofs.Storage.Log

/-!
# ControlPlane.Proofs.Cluster.Legible

Logs that can be read.  Whatever happens in a cluster, the disk of each of its nodes shows a log
(`Cluster.Reachable.legible`): whatever clients and nodes ask for, snapshots among it, whichever
peers are added, and whichever nodes are stopped and started again.
-/

namespace ControlPlane

open Consensus Storage

/-! ## storages -/

namespace Storage

/-- The disk shows a log. -/
def Legible (s : Storage) : Prop := ∃ v, Shows s.disk v

theorem legible_create (policy : DecodePolicy) : (create policy).Legible :=
  ⟨LogView.empty, Shows.empty⟩

/-- Every operation leaves a log. -/
theorem Legible.run {s : Storage} (h : s.Legible) (op : Operation) : (op.run s).Legible := by
  obtain ⟨v, hv⟩ := h
  exact ⟨v.after op, hv.run op⟩

end Storage

/-! ## nodes -/

namespace Node

/-- The disk of a node shows a log. -/
def Legible (n : Node) : Prop := n.storage.Legible

theorem storage_of_resume {id : UInt64} {self : Member} {s : Storage} {n : Node}
    (h : resume id self s = .ok n) : n.storage = s := by
  obtain ⟨vote, -, h⟩ := Wire.except_bind_eq_ok_iff.1 h
  obtain ⟨⟨lastApplied, applied⟩, -, h⟩ := Wire.except_bind_eq_ok_iff.1 h
  obtain ⟨ahead, -, h⟩ := Wire.except_bind_eq_ok_iff.1 h
  cases h
  rfl

namespace Legible

variable {n : Node} (h : n.Legible)
include h

theorem appendEntries (entries : List Entry) : (n.appendEntries entries).Legible :=
  Storage.Legible.run h (.append entries)

theorem truncate (index : UInt64) : (n.truncate index).Legible := by
  unfold Node.truncate
  split
  · exact Storage.Legible.run h (.truncate index)
  · exact h

theorem commit (upTo : Option LogId) : (n.commit upTo).2.Legible := by
  have happly (entries : List Entry) : (n.storage.apply entries).2.Legible :=
    Storage.Legible.run h (.apply entries)
  unfold Node.commit
  split
  · exact h
  · split
    · simp only
      split
      · exact h
      · next entries _ =>
          have hs := happly entries
          split
          · next s hs' =>
              rw [hs'] at hs
              exact hs
          · next s hs' =>
              rw [hs'] at hs
              exact hs
    · exact h

theorem hold (v : Vote) : (n.hold v).Legible := Storage.Legible.run h (.saveVote v)

theorem acceptVote {v : Vote} {n' : Node} (hn' : n.acceptVote v = some n') : n'.Legible := by
  unfold Node.acceptVote at hn'
  split at hn'
  · cases hn'
  · cases hn'
    exact h
  · cases hn'
    exact h.hold v

theorem answerVote (r : VoteRequest) : (n.answerVote r).2.Legible := by
  unfold Node.answerVote
  split
  · exact h
  · split
    · exact h
    · next hn' => exact h.acceptVote hn'

theorem noteAccepted (upTo : Option LogId) : (n.noteAccepted upTo).Legible := by
  unfold Node.noteAccepted
  split <;> exact h

theorem takeOver (entries : List Entry) : (n.takeOver entries).Legible := by
  unfold Node.takeOver
  split
  · exact h
  · exact (h.truncate _).appendEntries _

theorem answerAppend (r : AppendRequest) : (n.answerAppend r).2.Legible := by
  unfold Node.answerAppend
  split
  · exact h
  · next hn' =>
      have hn' := h.acceptVote hn'
      split
      · exact hn'.truncate _
      · exact ((hn'.noteAccepted _).takeOver _).commit _

theorem elect : n.elect.Legible := h.hold _

theorem propose (payload : Payload) : (n.propose payload).2.Legible := h.appendEntries _

theorem lead : n.lead.Legible := (h.hold _).propose .blank

theorem register (id : UInt64) (addr : String) : (n.register id addr).Legible := h

theorem dropConflict (last : LogId) : (n.dropConflict last).Legible := by
  unfold Node.dropConflict
  split
  · split
    · exact h
    · exact h.truncate _
  · exact h

theorem installSnapshot (snapshot : Snapshot) : (n.installSnapshot snapshot).2.Legible := by
  unfold Node.installSnapshot
  split
  · exact h
  · next last _ =>
      split
      · have hinstalled : ((n.dropConflict last).storage.installSnapshot snapshot).2.Legible :=
          Storage.Legible.run (h.dropConflict last) (.install snapshot)
        simp only
        split
        · next s hs =>
            rw [hs] at hinstalled
            exact Storage.Legible.run hinstalled (.purge last)
        · next s hs =>
            rw [hs] at hinstalled
            exact hinstalled
      · exact h

theorem answerInstall (r : InstallRequest) : (n.answerInstall r).2.Legible := by
  unfold Node.answerInstall
  split
  · exact h
  · split
    · exact h
    · next incoming _ =>
        split
        · have hreceived : Node.Legible { n with incoming := none } := h
          simp only
          split
          · exact h
          · next n' hn' =>
              have hinstalled := (hreceived.acceptVote hn').installSnapshot ⟨r.about, incoming.data⟩
              split <;> next hinstall => rw [hinstall] at hinstalled; exact hinstalled
        · exact h

theorem foldl_register (peers : List Peer) :
    (peers.foldl (fun n p => n.register p.nodeId p.addr) n).Legible := by
  induction peers generalizing n with
  | nil => exact h
  | cons p rest ih => exact ih (h.register p.nodeId p.addr)

end Legible

end Node

/-! ## clusters -/

namespace Cluster

/-- The disks of all nodes show logs. -/
def Legible (c : Cluster) : Prop := ∀ s ∈ c.sites, s.node.Legible

theorem legible_empty : empty.Legible := fun _ hs => nomatch hs

/-- What is in a list that was changed at a place was there, or is what something became. -/
theorem mem_of_mem_modify {sites : List Site} {i : Nat} {f : Site → Site} {s : Site}
    (h : s ∈ sites.modify i f) : s ∈ sites ∨ ∃ s' ∈ sites, s = f s' := by
  obtain ⟨j, hj⟩ := List.mem_iff_getElem?.1 h
  rw [List.getElem?_modify, Option.map_eq_map, Option.map_eq_some_iff] at hj
  obtain ⟨s', hs', rfl⟩ := hj
  have hmem := List.mem_of_getElem? hs'
  split
  · exact .inr ⟨s', hmem, rfl⟩
  · exact .inl hmem

namespace Legible

variable {c : Cluster} (h : c.Legible)
include h

theorem node {i : Nat} {n : Node} (hn : c.node? i = some n) : n.Legible := by
  obtain ⟨s, hs, rfl⟩ := Option.map_eq_some_iff.1 hn
  exact h s (List.mem_of_getElem? hs)

theorem setNode {n : Node} (hn : n.Legible) (i : Nat) : (c.setNode i n).Legible := by
  intro s hs
  rcases mem_of_mem_modify hs with hs | ⟨_, -, rfl⟩
  · exact h s hs
  · exact hn

/-! ### replication -/

theorem offer (leader : Node) (id : UInt64) : (c.offer leader id).2.Legible := by
  unfold Cluster.offer
  split
  · exact h
  · split
    · exact h
    · next hn => exact h.setNode ((h.node hn).answerAppend _) _

theorem offerAll (leader : Node) (ids : List UInt64) : (c.offerAll leader ids).2.Legible := by
  induction ids generalizing c with
  | nil => exact h
  | cons id rest ih => exact ih (h.offer leader id)

theorem replicate (i : Nat) : (c.replicate i).2.Legible := by
  unfold Cluster.replicate
  split
  · exact h
  · next leader hleader =>
      have hoffered := h.offerAll leader (others leader)
      simp only
      split
      · exact (hoffered.setNode ((h.node hleader).commit _) i).offerAll _ _
      · exact hoffered

/-! ### writing -/

theorem write (i : Nat) (payload : Payload) : (c.write i payload).2.Legible := by
  unfold Cluster.write
  split
  · exact h
  · next n hn =>
      split
      · exact h
      · split
        · have hproposed := (h.setNode ((h.node hn).propose payload) i).replicate i
          simp only
          split
          · split <;> exact hproposed
          · exact hproposed
        · exact h

theorem submit (i : Nat) (command : Command) : (c.submit i command).2.Legible := by
  unfold Cluster.submit
  split
  · exact h
  · next bytes _ =>
      have hwritten := h.write i (.normal bytes)
      split <;> next hwrite => rw [hwrite] at hwritten; exact hwritten

/-! ### members -/

theorem commitChange (i : Nat) (retain : Bool) (change : ChangeMembers) :
    (c.commitChange i retain change).2.Legible := by
  unfold Cluster.commitChange
  split
  · exact h
  · split
    · exact h
    · exact h
    · next m _ _ =>
        have hwritten := h.write i (.membership m)
        split <;> next hwrite => rw [hwrite] at hwritten; exact hwritten

theorem changeMembership (i : Nat) (retain : Bool) (change : ChangeMembers) :
    (c.changeMembership i retain change).2.Legible := by
  have hchanged := h.commitChange i retain change
  unfold Cluster.changeMembership
  split
  · next hchange =>
      rw [hchange] at hchanged
      exact hchanged
  · next hchange =>
      rw [hchange] at hchanged
      split
      · exact hchanged
      · exact hchanged.commitChange i retain _

theorem addLearner (i : Nat) (id : UInt64) (node : Member) (blocking : Bool) :
    (c.addLearner i id node blocking).2.Legible := by
  have hchanged := h.commitChange i true (.addNodes (SortedMap.empty.insert id node))
  unfold Cluster.addLearner
  split
  · next hchange =>
      rw [hchange] at hchanged
      exact hchanged
  · next hchange =>
      rw [hchange] at hchanged
      split <;> exact hchanged

theorem addPeer (i : Nat) (p : Peer) : (c.addPeer i p).2.Legible := by
  unfold Cluster.addPeer
  split
  · exact h
  · next n hn =>
      have hregistered := h.setNode ((h.node hn).register p.nodeId p.addr) i
      simp only
      split
      · exact hregistered.changeMembership i false _
      · exact hregistered.addLearner i p.nodeId _ true

theorem addPeers (i : Nat) (peers : List Peer) : (c.addPeers i peers).Legible := by
  induction peers generalizing c with
  | nil => exact h
  | cons p rest ih =>
      have hadded := h.addPeer i p
      unfold Cluster.addPeers
      split
      · next hadd =>
          rw [hadd] at hadded
          exact hadded
      · next hadd =>
          rw [hadd] at hadded
          exact ih hadded

/-! ### starting -/

theorem requestVotes (candidate : Node) (ids : List UInt64) :
    (c.requestVotes candidate ids).2.Legible := by
  induction ids generalizing c with
  | nil => exact h
  | cons id rest ih =>
      unfold Cluster.requestVotes
      split
      · exact ih h
      · split
        · exact ih h
        · next hn => exact ih (h.setNode ((h.node hn).answerVote _) _)

theorem initializeNode (i : Nat) (peers : List Peer) : (c.initializeNode i peers).Legible := by
  unfold Cluster.initializeNode
  split
  · exact h
  · next n hn =>
      have hn := (h.node hn).foldl_register (peers.filter (·.isVoter))
      simp only
      generalize (peers.filter (·.isVoter)).foldl (fun n p => n.register p.nodeId p.addr) n = n
        at hn ⊢
      split
      · have helected : (n.initializeLog
            (initialMembership n (peers.filter (·.isVoter)))).elect.Legible :=
          (hn.appendEntries _).elect
        generalize (n.initializeLog (initialMembership n (peers.filter (·.isVoter)))).elect
          = candidate at helected ⊢
        have hasked := (h.setNode helected i).requestVotes candidate (others candidate)
        split
        · exact (hasked.setNode helected.lead i).replicate i
        · exact hasked
      · exact h.setNode hn i

theorem run (i : Nat) : (c.run i).Legible := by
  unfold Cluster.run
  split
  · exact h
  · next site hsite =>
      have hn : site.node.Legible := h site (List.mem_of_getElem? hsite)
      simp only
      split
      · exact h.initializeNode i []
      · split
        · exact (h.initializeNode i _).addPeers i _
        · exact h.setNode (hn.foldl_register _) i

theorem settle : c.settle.Legible := by
  unfold Cluster.settle
  generalize List.range c.sites.length = indices
  induction indices generalizing c with
  | nil => exact h
  | cons i rest ih =>
      rw [List.foldl_cons]
      refine ih ?_
      split
      · split
        · exact h.replicate i
        · exact h
      · exact h

end Legible

theorem legible_of_boot {config : Config} {s : Storage} (hs : s.Legible) {n : Node}
    (hn : boot config s = some n) : n.Legible := by
  unfold boot at hn
  simp only at hn
  split at hn
  · cases hresume : Node.resume config.nodeId
        ⟨config.effectiveAdvertiseAddr, config.hostname.getD defaultHostname⟩ s with
    | error e =>
        rw [hresume] at hn
        cases hn
    | ok n' =>
        rw [hresume] at hn
        cases hn
        rw [Node.Legible, Node.storage_of_resume hresume]
        exact hs
  · cases hn

namespace Legible

variable {c : Cluster} (h : c.Legible)
include h

theorem start {config : Config} {c' : Cluster} (hc : c.start config = some c') : c'.Legible := by
  obtain ⟨n, hboot, hc⟩ := Option.bind_eq_some_iff.1 hc
  have hn : n.Legible := legible_of_boot (legible_create config.onDecodeError) hboot
  have happended : (Cluster.mk (c.sites ++ [⟨config, n, true⟩])).Legible := by
    intro s hs
    rcases List.mem_append.1 hs with hs | hs
    · exact h s hs
    · rw [List.mem_singleton.1 hs]
      exact hn
  cases hc
  exact (happended.run _).settle

theorem restart {i : Nat} {c' : Cluster} (hc : c.restart i = some c') : c'.Legible := by
  obtain ⟨site, hsite, hc⟩ := Option.bind_eq_some_iff.1 hc
  obtain ⟨storage, hopen, hc⟩ := Option.bind_eq_some_iff.1 hc
  obtain ⟨n, hboot, hc⟩ := Option.bind_eq_some_iff.1 hc
  obtain ⟨v, hv⟩ := h site (List.mem_of_getElem? hsite)
  have hstorage : storage.Legible := ⟨v, (of_open?_eq_some hopen).1 ▸ hv⟩
  have hreplaced : (Cluster.mk (c.sites.set i ⟨site.config, n, true⟩)).Legible := by
    intro s hs
    rcases List.mem_or_eq_of_mem_set hs with hs | rfl
    · exact h s hs
    · exact legible_of_boot hstorage hboot
  cases hc
  exact (hreplaced.run i).settle

theorem stop (i : Nat) : (c.stop i).Legible := by
  intro s hs
  rcases mem_of_mem_modify hs with hs | ⟨s', hs', rfl⟩
  · exact h s hs
  · exact h s' hs'

/-! ### serving -/

theorem exchange {ε α : Type} [Json.Form ε] [Json.Form α] {n : Node} (hn : n.Legible)
    {answer : Node → Answer ε α × Node} (hanswer : (answer n).2.Legible) (i : Nat) :
    (c.exchange i n answer).2.Legible := by
  have hanswered : (unlessFatal n answer).2.Legible := by
    unfold unlessFatal
    split
    · exact hn
    · exact hanswer
  exact h.setNode hanswered i

theorem answer {n : Node} (hn : n.Legible) (i : Nat) (call : Call) :
    (c.answer i n call).2.Legible := by
  cases call with
  | health => exact h
  | status => exact h
  | partition => exact h
  | submit command done =>
      have hsubmitted := h.submit i command
      unfold Cluster.answer
      simp only
      split <;> next hsubmit => rw [hsubmit] at hsubmitted; exact hsubmitted
  | vote q => exact h.exchange hn (hn.answerVote q) i
  | append q => exact h.exchange hn (hn.answerAppend q) i
  | install q => exact h.exchange hn (hn.answerInstall q) i

theorem serve (i : Nat) (r : Http.Request) : (c.serve i r).2.Legible := by
  unfold Cluster.serve
  split
  · exact h
  · next n hn =>
      split
      · exact h
      · next call _ => exact h.answer (h.node hn) i call

end Legible

/-! ## runs -/

/-- The clusters that come about: nodes are started, on new disks and on those that they had, and
stopped, peers are added, and requests are served, of clients and of nodes, in any order. -/
inductive Reachable : Cluster → Prop
  | empty : Reachable empty
  | start {c c' : Cluster} {config : Config} (h : Reachable c) (hc : c.start config = some c') :
      Reachable c'
  | restart {c c' : Cluster} {i : Nat} (h : Reachable c) (hc : c.restart i = some c') :
      Reachable c'
  | stop {c : Cluster} (h : Reachable c) (i : Nat) : Reachable (c.stop i)
  | serve {c : Cluster} (h : Reachable c) (i : Nat) (r : Http.Request) : Reachable (c.serve i r).2
  | addPeer {c : Cluster} (h : Reachable c) (i : Nat) (p : Peer) : Reachable (c.addPeer i p).2

/-- **In every cluster** that comes about, all logs can be read. -/
theorem Reachable.legible {c : Cluster} (h : Reachable c) : c.Legible := by
  induction h with
  | empty => exact legible_empty
  | start _ hc ih => exact ih.start hc
  | restart _ hc ih => exact ih.restart hc
  | stop _ i ih => exact ih.stop i
  | serve _ i r ih => exact ih.serve i r
  | addPeer _ i p ih => exact ih.addPeer i p

end Cluster

end ControlPlane
