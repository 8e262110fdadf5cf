import ControlPlane.Proofs.Cluster.Legible
import ControlPlane.Proofs.Cluster.Single
import Mathlib.Data.List.TakeWhile

/-!
# ControlPlane.Proofs.Cluster.Leader

What a write leaves of the leader.  A membership is in force with the leader as soon as it is in its
log, and is in force and committed when the write is taken.  It stays so while the log is offered to
the members, even where the leader reaches itself at the address of another member: offered its own
log, it either has all of it or refuses (`Node.Offered.answerAppend`), and neither changes what is
committed.  So the membership that was written is in force when the write returns
(`Cluster.exists_write`).
-/

namespace ControlPlane

open Consensus Storage

/-! ## the leader's own log -/

namespace Consensus

theorem Vote.compare_self (v : Vote) : v.compare v = .eq := by
  unfold Vote.compare LeaderId.compare
  cases v.committed <;> simp

theorem compareLast_self (a : Option LogId) : compareLast a a = .eq := by
  cases a with
  | none => rfl
  | some id => exact id.compare_self

end Consensus

/-- Where nothing but the membership in force would return, dropping the log changes nothing. -/
theorem Memberships.truncate_of_settled {m : Memberships} (h : m.effective = m.committed)
    (index : UInt64) : m.truncate index = m := by
  obtain ⟨committed, effective⟩ := m
  cases h
  unfold truncate
  split
  · split <;> rfl
  · rfl

namespace Node

/-- What is committed already is not committed again, and neither is less. -/
theorem commit_minLast (n : Node) (upTo : Option LogId) :
    n.commit (minLast upTo n.committed) = ([], n) := by
  unfold minLast
  split
  · exact commit_of_eq (compareLast_self n.committed)
  · next h =>
      unfold commit
      split
      · rfl
      · exact if_neg h

theorem exists_noteAccepted (n : Node) (upTo : Option LogId) :
    ∃ a, n.noteAccepted upTo = { n with accepted := a } := by
  unfold noteAccepted
  split
  · exact ⟨_, rfl⟩
  · exact ⟨n.accepted, rfl⟩

theorem acceptVote_of_eq {n : Node} {v : Vote} (h : v = n.vote) : n.acceptVote v = some n := by
  unfold acceptVote
  rw [h, Vote.compare_self]

/-- What is at an index of the log. -/
theorem logIdAt?_of_shows {n : Node} {v : LogView} (h : Shows n.storage.disk v) (index : UInt64) :
    n.logIdAt? index = (v.entry index).map (·.logId) := by
  cases hentry : v.entry index with
  | some e =>
      have hindex := h.index index e hentry
      rw [← hindex] at hentry ⊢
      rw [logIdAt?, entries_of_entry h hentry]
      rfl
  | none =>
      have hempty : n.storage.entries (.included index) (.included index) = .ok [] := by
        refine entries_eq_of_shows h (by simp) .nil fun e => ?_
        simp only [List.not_mem_nil, Bound.allowsFrom, Bound.allowsTo, decide_eq_true_iff,
          false_iff]
        intro he
        obtain ⟨he, hge, hle⟩ := he
        rw [UInt64.le_antisymm hle hge, hentry] at he
        cases he
      rw [logIdAt?, hempty]
      rfl

section Own

variable {n : Node} (h : n.Legible)
include h

/-- The node has what it sends. -/
theorem hasEntry_own {e : Entry} (he : e ∈ n.appendRequest.entries) :
    n.hasEntry e.logId = true := by
  obtain ⟨v, hv⟩ := h
  have hlow : Bound.unbounded ≠ .excluded 18446744073709551615 := nofun
  obtain ⟨es, hes, -, hmem⟩ := entries_of_shows hv hlow .unbounded
  have hin : e ∈ es := by
    rw [appendRequest, hes] at he
    exact he
  rw [hasEntry, logIdAt?_of_shows hv, ((hmem e).1 hin).1]
  simp

theorem takeOver_own : n.takeOver n.appendRequest.entries = n := by
  have hnone : n.appendRequest.entries.dropWhile (fun e => n.hasEntry e.logId) = [] :=
    List.dropWhile_eq_nil_iff.2 fun e he => hasEntry_own h he
  rw [takeOver, hnone]

/-- Behind a refusal the entry that was asked for is still missing. -/
theorem hasEntry_truncate {id : LogId} (hmissing : n.hasEntry id = false) :
    (n.truncate id.index).hasEntry id = false := by
  unfold truncate
  split
  · obtain ⟨v, hv⟩ := h
    have hcommitted := (Bool.or_eq_false_iff.1 hmissing).1
    have hcut : Shows (n.storage.truncate id.index).disk (v.after (.truncate id.index)) :=
      hv.run (.truncate id.index)
    rw [hasEntry, logIdAt?_of_shows hcut]
    simpa [LogView.after] using hcommitted
  · exact hmissing

end Own

/-- What a leader is that was offered its own log. -/
inductive Offered (leader : Node) : Node → Prop
  /-- It has all of it, and only notes so. -/
  | had (accepted : LeaderId × Option LogId) : Offered leader { leader with accepted }
  /-- It has not what was purged last, and drops what is behind that. -/
  | refused {n : Node} {id : LogId} (previous : leader.appendRequest.previous = some id)
    (missing : n.hasEntry id = false) (vote : n.vote = leader.vote)
    (memberships : n.memberships = leader.memberships) (legible : n.Legible) : Offered leader n

namespace Offered

variable {leader n : Node}

theorem memberships_eq (h : Offered leader n) : n.memberships = leader.memberships := by
  cases h with
  | had accepted => rfl
  | refused _ _ _ memberships _ => exact memberships

/-- A refusal leaves the memberships, if the one in force is committed. -/
theorem truncate {id : LogId} (hprevious : leader.appendRequest.previous = some id)
    (hsettled : leader.memberships.effective = leader.memberships.committed)
    (hmissing : n.hasEntry id = false) (hvote : n.vote = leader.vote)
    (hmemberships : n.memberships = leader.memberships) (hn : n.Legible) :
    Offered leader (n.truncate id.index) := by
  refine .refused hprevious (hasEntry_truncate hn hmissing) ?_ ?_ (hn.truncate id.index)
  · unfold Node.truncate
    split <;> exact hvote
  · unfold Node.truncate
    split
    · show n.memberships.truncate id.index = leader.memberships
      rw [hmemberships]
      exact Memberships.truncate_of_settled hsettled id.index
    · exact hmemberships

/-- **A leader that is offered its own log** keeps the memberships that it has, if the one in force
is committed. -/
theorem answerAppend (hleader : leader.Legible)
    (hsettled : leader.memberships.effective = leader.memberships.committed)
    (h : Offered leader n) : Offered leader (n.answerAppend leader.appendRequest).2 := by
  unfold Node.answerAppend
  cases h with
  | refused previous missing vote memberships legible =>
      have haccept : n.acceptVote leader.appendRequest.vote = some n := acceptVote_of_eq vote.symm
      simp only [haccept, previous, Option.filter_some, missing, Bool.not_false, if_true]
      exact .truncate previous hsettled missing vote memberships legible
  | had accepted =>
      have haccept : acceptVote { leader with accepted } leader.appendRequest.vote
          = some { leader with accepted } := acceptVote_of_eq rfl
      simp only [haccept]
      split
      · next id hid =>
          obtain ⟨hprevious, hmissing⟩ := Option.filter_eq_some_iff.1 hid
          exact .truncate hprevious hsettled (by simpa using hmissing) rfl rfl hleader
      · obtain ⟨a, ha⟩ := exists_noteAccepted { leader with accepted }
          (maxLast leader.appendRequest.previous
            (leader.appendRequest.entries.getLast?.map (·.logId)))
        have htakeOver : takeOver { leader with accepted := a } leader.appendRequest.entries
            = { leader with accepted := a } :=
          takeOver_own (n := { leader with accepted := a }) hleader
        have hcommit := congrArg Prod.snd (commit_minLast { leader with accepted := a }
          (acceptedNow { leader with accepted := a }))
        rw [ha, htakeOver]
        exact hcommit ▸ .had a

end Offered

/-- What is committed is in force. -/
theorem memberships_commit {n : Node} {upTo : Option LogId} (h : (n.commit upTo).1 ≠ []) :
    (n.commit upTo).2.memberships = n.memberships.commit upTo := by
  unfold commit at h ⊢
  split at h
  · exact absurd rfl h
  · split at h
    · next hbehind =>
        simp only [if_pos hbehind]
        simp only at h
        split at h
        · exact absurd rfl h
        · split at h
          · rfl
          · exact absurd rfl h
    · exact absurd rfl h

end Node

/-! ## replication -/

namespace Cluster

theorem node?_setNode (c : Cluster) (i j : Nat) (n : Node) :
    (c.setNode i n).node? j = if i = j then (c.node? j).map fun _ => n else c.node? j := by
  rw [node?, setNode, List.getElem?_modify, node?]
  split <;> cases c.sites[j]? <;> rfl

theorem node?_setNode_self {c : Cluster} {i : Nat} {n : Node} (h : c.node? i = some n) (n' : Node) :
    (c.setNode i n').node? i = some n' := by
  rw [node?_setNode, if_pos rfl, h, Option.map_some]

section Offer

variable {leader : Node} {P : Node → Prop}
  (hP : ∀ n, P n → P (n.answerAppend leader.appendRequest).2) {i : Nat}
include hP

/-- A node to which a log is offered answers, and any other stays as it is. -/
theorem exists_offer {c : Cluster} {n : Node} (h : c.node? i = some n) (hn : P n) (id : UInt64) :
    ∃ n', (c.offer leader id).2.node? i = some n' ∧ P n' := by
  unfold offer
  split
  · exact ⟨n, h, hn⟩
  · next j _ =>
      split
      · exact ⟨n, h, hn⟩
      · next m hm =>
          simp only [node?_setNode]
          split
          · next hj =>
              rw [hj, h, Option.some.injEq] at hm
              exact ⟨_, by rw [h, Option.map_some, ← hm], hP n hn⟩
          · exact ⟨n, h, hn⟩

theorem exists_offerAll (ids : List UInt64) {c : Cluster} {n : Node} (h : c.node? i = some n)
    (hn : P n) : ∃ n', (c.offerAll leader ids).2.node? i = some n' ∧ P n' := by
  induction ids generalizing c n with
  | nil => exact ⟨n, h, hn⟩
  | cons id rest ih =>
      obtain ⟨n', hnode, hn'⟩ := exists_offer hP h hn id
      exact ih hnode hn'

end Offer

variable {c : Cluster} {i : Nat} {n : Node}

/-- A leader whose entries come to something has committed them. -/
theorem exists_replicate (hlegible : n.Legible) (h : c.node? i = some n)
    (houtcomes : (c.replicate i).1 ≠ [])
    (hsettled : (n.commit n.lastLogId).1 ≠ [] →
      (n.commit n.lastLogId).2.memberships.effective
        = (n.commit n.lastLogId).2.memberships.committed) :
    (n.commit n.lastLogId).1 ≠ [] ∧
      ∃ n', (c.replicate i).2.node? i = some n' ∧ Node.Offered (n.commit n.lastLogId).2 n' := by
  obtain ⟨n₁, hn₁, -⟩ :=
    exists_offerAll (P := fun _ => True) (fun _ _ => trivial) (others n) h trivial
  unfold replicate at houtcomes ⊢
  simp only [h] at houtcomes ⊢
  split at houtcomes
  · next hquorum =>
      rw [if_pos hquorum]
      refine ⟨houtcomes, exists_offerAll (P := Node.Offered (n.commit n.lastLogId).2)
        (fun m hm => ?_) _ (node?_setNode_self hn₁ _) (.had (n.commit n.lastLogId).2.accepted)⟩
      exact hm.answerAppend (hlegible.commit n.lastLogId) (hsettled houtcomes)
  · exact absurd rfl houtcomes

/-- **A membership that is written** is in force when the write is taken. -/
theorem exists_write (hc : c.Legible) (h : c.node? i = some n) {m : Membership}
    {done : LogId × Outcome} (hok : (c.write i (.membership m)).1 = .ok done) :
    ∃ n', (c.write i (.membership m)).2.node? i = some n' ∧ n'.membership = m := by
  let id := (n.propose (.membership m)).1
  let n₁ := (n.propose (.membership m)).2
  have hproposed : n₁.memberships = ⟨n.memberships.effective, ⟨some id, m⟩⟩ := rfl
  unfold write at hok ⊢
  simp only [h] at hok ⊢
  split at hok
  · cases hok
  · split at hok
    · next hleads =>
        rw [if_pos hleads]
        have hnode := node?_setNode_self h n₁
        split at hok
        · next outcome hlast =>
            split at hok
            · next hend =>
                have houtcomes : ((c.setNode i n₁).replicate i).1 ≠ [] := by
                  intro hnil
                  rw [hnil] at hlast
                  cases hlast
                have hcommitted (hne : (n₁.commit n₁.lastLogId).1 ≠ []) :
                    (n₁.commit n₁.lastLogId).2.memberships = ⟨⟨some id, m⟩, ⟨some id, m⟩⟩ := by
                  rw [Node.memberships_commit hne, hproposed, hend, Memberships.commit,
                    if_neg (by rw [compareLast_self]; decide)]
                obtain ⟨hne, n', hn', hoffered⟩ := exists_replicate
                  ((hc.node h).propose (.membership m)) hnode houtcomes
                  fun hne => by rw [hcommitted hne]
                rw [if_pos hend]
                refine ⟨n', hn', ?_⟩
                rw [Node.membership, hoffered.memberships_eq, hcommitted hne]
            · cases hok
        · cases hok
    · cases hok

end Cluster

end ControlPlane
