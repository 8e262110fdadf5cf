import ControlPlane.Consensus.Change
import ControlPlane.Proofs.SortedMap

/-!
# ControlPlane.Proofs.Consensus.Change

What a change to the membership comes to.  Nodes that are added leave the sets of voters as they are
(`change_addNodes`), and so do not vote.  Voters that are added are in the last set of voters, which
decides together with the set before (`change_addVoters`); a further change, which adds nobody,
leaves only the last set (`change_flatten`).  So when a change is settled, one set of voters
decides: the last one, with a node that was added in it if it was added as a voter
(`Settles.addVoters`), and else without (`Settles.addNodes`).
-/

namespace ControlPlane

/-! ## sets of ids -/

namespace NodeSet

theorem mem_toList_iff {s : NodeSet} {id : UInt64} : id ∈ s.toList ↔ s.contains id = true := by
  rw [toList, SortedMap.mem_keys_iff, contains, SortedMap.contains, Option.isSome_iff_exists]

theorem contains_insert_iff {s : NodeSet} {id j : UInt64} :
    (s.insert id).contains j = true ↔ j = id ∨ s.contains j = true := by
  simp only [contains, insert, SortedMap.contains, SortedMap.get?_insert, Std.compare_eq_iff_eq]
  by_cases h : j = id <;> simp [h]

theorem contains_foldl_insert_iff {ids : List UInt64} {s : NodeSet} {j : UInt64} :
    (ids.foldl insert s).contains j = true ↔ j ∈ ids ∨ s.contains j = true := by
  induction ids generalizing s with
  | nil => simp
  | cons id rest ih =>
      rw [List.foldl_cons, ih, contains_insert_iff, List.mem_cons]
      tauto

@[simp] theorem contains_union_iff {s t : NodeSet} {j : UInt64} :
    (s.union t).contains j = true ↔ s.contains j = true ∨ t.contains j = true := by
  rw [union, contains_foldl_insert_iff, mem_toList_iff, or_comm]

theorem ofList_eq_foldl (ids : List UInt64) : ofList ids = ids.foldl insert empty := by
  have hgeneral (s : NodeSet) : NodeSet.mk ((ids.map (·, ())).foldl
      (fun m e => m.insert e.1 e.2) s.marks) = ids.foldl insert s := by
    induction ids generalizing s with
    | nil => rfl
    | cons id rest ih => exact ih (s.insert id)
  exact hgeneral empty

@[simp] theorem contains_ofList_iff {ids : List UInt64} {j : UInt64} :
    (ofList ids).contains j = true ↔ j ∈ ids := by
  rw [ofList_eq_foldl, contains_foldl_insert_iff]
  exact or_iff_left Bool.false_ne_true

end NodeSet

namespace Consensus

theorem votes_iff {configs : List NodeSet} {id : UInt64} :
    votes configs id = true ↔ ∃ s ∈ configs, s.contains id = true := List.any_eq_true

namespace Membership

theorem mem_voters_iff {m : Membership} {id : UInt64} :
    id ∈ m.voters ↔ votes m.configs id = true := by
  rw [voters, NodeSet.mem_toList_iff, NodeSet.contains_ofList_iff, List.mem_flatMap, votes_iff]
  simp only [NodeSet.mem_toList_iff]

theorem voters_congr {m m' : Membership} (h : m'.configs = m.configs) : m'.voters = m.voters := by
  rw [voters, voters, h]

/-- The voters of one set. -/
theorem mem_voters_of_configs {m : Membership} {set : NodeSet} (h : m.configs = [set])
    (id : UInt64) : id ∈ m.voters ↔ set.contains id = true := by
  rw [mem_voters_iff, votes_iff, h]
  simp only [List.mem_singleton, exists_eq_left]

/-! ## valid memberships -/

theorem eq_of_ensureValid {m m' : Membership} (h : m.ensureValid = .ok m') : m' = m := by
  unfold ensureValid at h
  split at h
  · cases h
  · split at h <;> cases h
    rfl

/-! ## nodes that are added -/

variable {m m' : Membership} {id : UInt64} {node : Member}

theorem contains_eq_false_iff :
    m.contains id = false ↔ votes m.configs id = false ∧ m.nodes.get? id = none := by
  rw [Membership.contains, Bool.or_eq_false_iff, SortedMap.contains, Option.isSome_eq_false_iff,
    Option.isNone_iff_eq_none]

theorem addNode_of_contains_eq_false (h : m.contains id = false) (node : Member) :
    m.addNode id node = ⟨m.configs, m.nodes.insert id node⟩ := by
  obtain ⟨-, hnodes⟩ := contains_eq_false_iff.1 h
  rw [addNode, if_neg (by simp [SortedMap.contains, hnodes])]

/-- **A node that is added** gets a record, and nothing else changes. -/
theorem change_addNodes (h : m.contains id = false) {retain : Bool}
    (hm : m.change retain (.addNodes (SortedMap.empty.insert id node)) = .ok m') :
    m' = ⟨m.configs, m.nodes.insert id node⟩ := by
  rw [eq_of_ensureValid hm]
  exact addNode_of_contains_eq_false h node

/-! ## sets of voters -/

/-- The set of voters that is aimed at is the last. -/
theorem getLast?_coherent (configs : List NodeSet) (goal : NodeSet) :
    (coherent configs goal).getLast? = some goal := by
  unfold coherent
  split
  · rfl
  · split <;> rfl

/-- Who votes in the last set of voters votes. -/
theorem votes_of_lastConfig {j : UInt64} (h : m.lastConfig.contains j = true) :
    votes m.configs j = true := by
  cases hlast : m.configs.getLast? with
  | none =>
      rw [lastConfig, hlast] at h
      exact absurd h Bool.false_ne_true
  | some last =>
      rw [lastConfig, hlast] at h
      exact votes_iff.2 ⟨last, List.mem_of_getLast? hlast, h⟩

/-- The record of a node that is left when only the last set of voters is: those that voted only in
an earlier one have none. -/
def remaining (m : Membership) (j : UInt64) : Option Member :=
  if votes m.configs j && !m.lastConfig.contains j then none else m.nodes.get? j

theorem remaining_addNode (h : m.contains id = false) (j : UInt64) :
    (Membership.mk m.configs (m.nodes.insert id node)).remaining j
      = if j = id then some node else m.remaining j := by
  obtain ⟨hvotes, -⟩ := contains_eq_false_iff.1 h
  simp only [remaining, SortedMap.get?_insert, Std.compare_eq_iff_eq]
  by_cases hj : j = id
  · simp [hj, hvotes]
  · rw [if_neg hj, if_neg hj]
    rfl

theorem coherent_lastConfig (m : Membership) :
    coherent m.configs m.lastConfig = [m.lastConfig] := by
  unfold coherent
  split
  · rfl
  · next hnot =>
      cases hlast : m.configs.getLast? with
      | none => rfl
      | some last =>
          have hmem : m.lastConfig ∈ m.configs := by
            rw [lastConfig, hlast]
            exact List.mem_of_getLast? hlast
          exact absurd hmem hnot

section Growing

variable {goal : NodeSet}
  (hgoal : ∀ j, m.lastConfig.contains j = true → goal.contains j = true)
include hgoal

/-- On the way to a set with all voters of the last one, nobody votes that is not in it. -/
theorem votes_coherent (j : UInt64) : votes (coherent m.configs goal) j = goal.contains j := by
  unfold coherent
  split
  · exact Bool.or_false _
  · cases hlast : m.configs.getLast? with
    | none => exact Bool.or_false _
    | some last =>
        have hj := hgoal j
        rw [lastConfig, hlast, Option.getD_some] at hj
        show (last.contains j || (goal.contains j || false)) = _
        rw [Bool.or_false, Bool.or_eq_right_iff_imp]
        exact hj

/-- Those that vote no more are dropped. -/
theorem get?_nextCoherent (j : UInt64) : (m.nextCoherent goal false).nodes.get? j
    = if votes m.configs j && !goal.contains j then none else m.nodes.get? j := by
  show (m.nodes.filterKeys fun id =>
    !votes m.configs id || votes (coherent m.configs goal) id).get? j = _
  rw [SortedMap.get?_filterKeys, votes_coherent hgoal]
  cases votes m.configs j <;> cases goal.contains j <;> rfl

end Growing

/-- **A change that adds nobody** leaves the last set of voters. -/
theorem change_flatten (hm : m.change false (.addVoterIds .empty) = .ok m') :
    m'.configs = [m.lastConfig] ∧ ∀ j, m'.nodes.get? j = m.remaining j := by
  rw [eq_of_ensureValid hm]
  exact ⟨m.coherent_lastConfig, get?_nextCoherent fun _ h => h⟩

/-- **A voter that is added** is in the last set of voters, with all that were. -/
theorem change_addVoters (h : m.contains id = false)
    (hm : m.change false (.addVoters (SortedMap.empty.insert id node)) = .ok m') :
    m'.lastConfig = m.lastConfig.union (.ofList [id]) ∧
      (∀ j, votes m'.configs j = m'.lastConfig.contains j) ∧
      ∀ j, m'.nodes.get? j = if j = id then some node else m.remaining j := by
  obtain ⟨hvotes, -⟩ := contains_eq_false_iff.1 h
  let goal := m.lastConfig.union (.ofList [id])
  have hcontains (j : UInt64) :
      goal.contains j = true ↔ m.lastConfig.contains j = true ∨ j = id := by
    rw [NodeSet.contains_union_iff, NodeSet.contains_ofList_iff, List.mem_singleton]
  have hgoal (j : UInt64) (hj : m.lastConfig.contains j = true) : goal.contains j = true :=
    (hcontains j).2 (.inl hj)
  have hm' : m' = (Membership.mk m.configs (m.nodes.insert id node)).nextCoherent goal false := by
    rw [eq_of_ensureValid hm, ← addNode_of_contains_eq_false h node]
    rfl
  have hlast : m'.lastConfig = goal := by
    rw [hm', lastConfig, nextCoherent, getLast?_coherent]
    rfl
  refine ⟨hlast, fun j => ?_, fun j => ?_⟩
  · rw [hlast, hm']
    exact votes_coherent hgoal j
  · rw [hm', get?_nextCoherent (m := ⟨m.configs, m.nodes.insert id node⟩) hgoal]
    simp only [SortedMap.get?_insert, Std.compare_eq_iff_eq]
    by_cases hj : j = id
    · simp [hj, hvotes]
    · have hsame : goal.contains j = m.lastConfig.contains j :=
        Bool.eq_iff_iff.2 ((hcontains j).trans (or_iff_left hj))
      rw [if_neg hj, if_neg hj, hsame, remaining]

/-! ## changes that are settled -/

theorem configs_of_length (h : m.configs.length = 1) : m.configs = [m.lastConfig] := by
  obtain ⟨set, hset⟩ := List.length_eq_one_iff.1 h
  rw [lastConfig, hset]
  rfl

theorem votes_of_length (h : m.configs.length = 1) (j : UInt64) :
    votes m.configs j = m.lastConfig.contains j := by
  rw [configs_of_length h]
  exact Bool.or_false _

theorem remaining_of_length (h : m.configs.length = 1) (j : UInt64) :
    m.remaining j = m.nodes.get? j := by
  rw [remaining, votes_of_length h, Bool.and_not_self, if_neg Bool.false_ne_true]

/-- A change comes to a membership, with the further change that follows where more than one set of
voters decides. -/
def Settles (m : Membership) (retain : Bool) (change : ChangeMembers) (m' : Membership) : Prop :=
  ∃ first, m.change retain change = .ok first ∧
    if first.configs.length = 1 then m' = first
    else first.change retain (.addVoterIds .empty) = .ok m'

namespace Settles

/-- Either step leaves the last set of voters, without those that voted only in an earlier one. -/
theorem eq_last {change : ChangeMembers} (h : m.Settles false change m') :
    ∃ first, m.change false change = .ok first ∧ m'.configs = [first.lastConfig] ∧
      ∀ j, m'.nodes.get? j = first.remaining j := by
  obtain ⟨first, hfirst, hlast⟩ := h
  refine ⟨first, hfirst, ?_⟩
  split at hlast
  · next hone =>
      rw [hlast]
      exact ⟨configs_of_length hone, fun j => (remaining_of_length hone j).symm⟩
  · exact change_flatten hlast

/-- **A node that is added** is a member, and the last set of voters is as it was. -/
theorem addNodes (hid : m.contains id = false)
    (h : m.Settles false (.addNodes (SortedMap.empty.insert id node)) m') :
    m'.configs = [m.lastConfig] ∧
      ∀ j, m'.nodes.get? j = if j = id then some node else m.remaining j := by
  obtain ⟨first, hfirst, hconfigs, hnodes⟩ := h.eq_last
  rw [change_addNodes hid hfirst] at hconfigs hnodes
  exact ⟨hconfigs, fun j => (hnodes j).trans (remaining_addNode hid j)⟩

/-- **A voter that is added** is a member, and votes with the last set of voters. -/
theorem addVoters (hid : m.contains id = false)
    (h : m.Settles false (.addVoters (SortedMap.empty.insert id node)) m') :
    m'.configs = [m.lastConfig.union (.ofList [id])] ∧
      ∀ j, m'.nodes.get? j = if j = id then some node else m.remaining j := by
  obtain ⟨first, hfirst, hconfigs, hnodes⟩ := h.eq_last
  obtain ⟨hlast, hvotes, hadded⟩ := change_addVoters hid hfirst
  refine ⟨by rw [hconfigs, hlast], fun j => ?_⟩
  rw [hnodes, remaining, hvotes, Bool.and_not_self, if_neg Bool.false_ne_true, hadded]

end Settles

end Membership

end Consensus

end ControlPlane
