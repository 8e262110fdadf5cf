import ControlPlane.Proofs.Storage.Batches
import ControlPlane.Proofs.Storage.Log

/-!
# ControlPlane.Proofs.Storage.Tail

A log of which everything is applied (`CaughtUp`), and its next entry.  Everything is applied when
the last entries have been and none of them stopped the storage (`CaughtUp.exists_apply`).  A leader
appends an entry, reads it back, and applies it; then the state is one command further
(`CaughtUp.apply_append`).  Behind such a log there is nothing to read.
-/

namespace ControlPlane.Storage

open Consensus
open Json (writeBytes)

/-! ## the end of a log -/

/-- A log ends at a position if its entry there is that one, and there is none behind it. -/
structure LogView.EndsAt (v : LogView) (last : LogId) : Prop where
  entry : ∃ e, v.entry last.index = some e ∧ e.logId = last
  greatest : ∀ j e, v.entry j = some e → j ≤ last.index

/-- The first entry is the end. -/
theorem LogView.endsAt_first (e : Entry) : (LogView.empty.insert e).EndsAt e.logId where
  entry := ⟨e, if_pos rfl, rfl⟩
  greatest j e' he' := by
    simp only [LogView.insert, LogView.empty] at he'
    by_cases hj : j = e.logId.index
    · rw [hj]
      exact UInt64.le_refl _
    · rw [if_neg hj] at he'
      cases he'

/-- An entry behind the end is the new end. -/
theorem LogView.EndsAt.insert {v : LogView} {last : LogId} (h : v.EndsAt last) {e : Entry}
    (hlt : last.index < e.logId.index) : (v.insert e).EndsAt e.logId where
  entry := ⟨e, if_pos rfl, rfl⟩
  greatest j e' he' := by
    simp only [LogView.insert] at he'
    by_cases hj : j = e.logId.index
    · rw [hj]
      exact UInt64.le_refl _
    · rw [if_neg hj] at he'
      exact UInt64.le_of_lt (UInt64.lt_of_le_of_lt (h.greatest j e' he') hlt)

section Shows

variable {s : Storage} {v : LogView}

/-- The state of a log names its end. -/
theorem exists_logState_of_endsAt (h : Shows s.disk v) {last : LogId} (hv : v.EndsAt last) :
    ∃ purged, s.logState = .ok ⟨purged, some last⟩ := by
  obtain ⟨found, hlogState, hfound⟩ := logState_of_shows h
  obtain ⟨e, he, rfl⟩ := hv.entry
  rcases hfound with ⟨i, e', he', hgreatest, rfl⟩ | ⟨hnone, -⟩
  · have hi : i = e.logId.index :=
      UInt64.le_antisymm (hv.greatest i e' he') (hgreatest _ e he)
    rw [hi, he, Option.some.injEq] at he'
    exact ⟨_, he' ▸ hlogState⟩
  · rw [hnone] at he
    cases he

/-- A range of a log is read as the one list of its entries that has the order of the indices. -/
theorem entries_eq_of_shows (h : Shows s.disk v) {low high : Bound}
    (hlow : low ≠ .excluded 18446744073709551615) {es : List Entry}
    (hordered : es.Pairwise fun a b => a.logId.index < b.logId.index)
    (hmem : ∀ e, e ∈ es ↔ v.entry e.logId.index = some e ∧
      low.allowsFrom e.logId.index = true ∧ high.allowsTo e.logId.index = true) :
    s.entries low high = .ok es := by
  obtain ⟨found, hfound, hfoundOrdered, hfoundMem⟩ := entries_of_shows h hlow high
  have hnodup {l : List Entry} (hl : l.Pairwise fun a b => a.logId.index < b.logId.index) :
      l.Nodup := by
    refine hl.imp fun {a b} hlt heq => ?_
    rw [heq] at hlt
    exact UInt64.lt_irrefl _ hlt
  have hperm : found.Perm es :=
    (List.perm_ext_iff_of_nodup (hnodup hfoundOrdered) (hnodup hordered)).2 fun e =>
      (hfoundMem e).trans (hmem e).symm
  rw [hfound, hperm.eq_of_pairwise (fun a b _ _ hab hba => absurd hba (UInt64.lt_asymm hab))
    hfoundOrdered hordered]

/-- The entry at an index is read alone. -/
theorem entries_of_entry (h : Shows s.disk v) {e : Entry} (he : v.entry e.logId.index = some e) :
    s.entries (.included e.logId.index) (.included e.logId.index) = .ok [e] := by
  refine entries_eq_of_shows h (by simp) (List.pairwise_singleton _ e) fun e' => ?_
  simp only [List.mem_singleton, Bound.allowsFrom, Bound.allowsTo, decide_eq_true_iff]
  constructor
  · intro heq
    rw [heq]
    exact ⟨he, UInt64.le_refl _, UInt64.le_refl _⟩
  · intro he'
    obtain ⟨hentry, hge, hle⟩ := he'
    rw [UInt64.le_antisymm hle hge, he, Option.some.injEq] at hentry
    exact hentry.symm

end Shows

/-! ## applying what does not stop -/

/-- Entries that do not stop a storage are applied, each with its outcome. -/
theorem apply_of_not_stops {s : Storage} {a : Applied} (hload : loadApplied s.disk = .ok a)
    (hstate : a.state = s.state) {es : List Entry} (hne : es ≠ [])
    (h : ∀ e ∈ es, stops s.policy e = false) :
    s.apply es =
      (.ok (es.mapIdx fun i e => outcomeOn ((es.take i).foldl Applied.next a).state.table e),
        s.store (es.foldl Applied.next a)) := by
  have hprogress : progress s.policy es = es.length := List.findIdx_eq_length.2 h
  have hpositive : progress s.policy es ≠ 0 := by
    rw [hprogress]
    exact Nat.ne_of_gt (List.length_pos_iff.2 hne)
  rw [apply_eq_applyFrom hload, Prod.ext_iff]
  refine ⟨applyFrom_outcomes es hstate hprogress, ?_⟩
  rw [applyFrom_state es hstate, if_neg hpositive, Applied.behind, hprogress, List.take_length]

/-- What an accepted or refused command comes to. -/
def outcomeOf : Except Rejection Table → Outcome
  | .ok _ => .applied
  | .error reason => .rejected reason

section Command

variable {e : Entry} {bytes : Bytes} {c : Command} (hpayload : e.payload = .normal bytes)
  (hdecode : Command.decode bytes = .ok c)
include hpayload hdecode

/-- An entry that holds a command comes to what the command comes to. -/
theorem outcomeOn_command (t : Table) : outcomeOn t e = outcomeOf (t.apply c) := by
  cases hc : t.apply c <;> simp only [outcomeOn, outcomeOf, hpayload, hdecode, hc]

theorem tableAfter_command (t : Table) : tableAfter t e = t.next c := by
  unfold tableAfter Table.next
  simp only [hpayload, hdecode]

/-- An entry that holds a command stops no storage. -/
theorem not_stops_command (policy : DecodePolicy) : stops policy e = false := by
  unfold stops stray?
  simp only [hpayload, hdecode]
  cases policy <;> rfl

omit hdecode in
/-- An entry that holds a command leaves the membership. -/
theorem nextMembership_command (m : StoredMembership) : nextMembership m e = m := by
  unfold nextMembership
  simp only [hpayload]

end Command

/-! ## everything applied -/

/-- An operation that does not write the vote leaves it. -/
theorem readVote_run {op : Operation} (h : Key.vote ∉ op.touches) (s : Storage) :
    (op.run s).readVote = s.readVote := by
  rw [readVote, readVote, readFixed, readFixed, Operation.value_run h]

/-- A storage with a vote of which the whole log is applied, up to a position. -/
structure CaughtUp (s : Storage) (vote : Vote) (m : StoredMembership) (last : LogId) (t : Table) :
    Prop where
  sound : Sound s
  vote : s.readVote = .ok (some vote)
  applied : loadApplied s.disk = .ok ⟨some last, m, ⟨t, last.index⟩⟩
  log : ∃ v, Shows s.disk v ∧ v.EndsAt last

namespace CaughtUp

variable {s : Storage} {vote : Vote} {m : StoredMembership} {last : LogId} {t : Table}

/-- When a storage has applied its last entries, and none of them stopped it, everything is
applied. -/
theorem exists_apply (hsound : Sound s) (hvote : s.readVote = .ok (some vote)) {a : Applied}
    (hload : loadApplied s.disk = .ok a) (hstate : a.state = s.state) {v : LogView}
    (hv : Shows s.disk v) (hlast : v.EndsAt last) {es : List Entry} (hne : es ≠ [])
    (hstops : ∀ e ∈ es, stops s.policy e = false)
    (hnext : es.foldl Applied.next a = ⟨some last, m, ⟨t, last.index⟩⟩) :
    ∃ s', s.apply es =
        (.ok (es.mapIdx fun i e => outcomeOn ((es.take i).foldl Applied.next a).state.table e),
          s') ∧
      s'.policy = s.policy ∧ CaughtUp s' vote m last t := by
  have happly := apply_of_not_stops hload hstate hne hstops
  rw [hnext] at happly
  have hrun : s.store ⟨some last, m, ⟨t, last.index⟩⟩ = Operation.run s (.apply es) :=
    (congrArg Prod.snd happly).symm
  refine ⟨_, happly, rfl, ?_⟩
  exact
    { sound := hrun ▸ hsound.run (.apply es)
      vote := by
        rw [← hvote, hrun]
        exact readVote_run (by simp [Operation.touches]) s
      applied := loadApplied_of_some rfl
      log := ⟨v, hrun ▸ hv.run (.apply es), hlast⟩ }

theorem state (h : CaughtUp s vote m last t) : s.state = ⟨t, last.index⟩ := by
  obtain ⟨a, ha, hstate⟩ := h.sound.inSync
  rw [h.applied, Except.ok.injEq] at ha
  rw [← hstate, ← ha]

theorem exists_logState (h : CaughtUp s vote m last t) :
    ∃ purged, s.logState = .ok ⟨purged, some last⟩ := by
  obtain ⟨v, hv, hlast⟩ := h.log
  exact exists_logState_of_endsAt hv hlast

/-- Behind the end of the log there is nothing. -/
theorem entries_behind (h : CaughtUp s vote m last t) (hroom : last.index < last.index + 1) :
    s.entries (.included (last.index + 1)) .unbounded = .ok [] := by
  obtain ⟨v, hv, hlast⟩ := h.log
  refine entries_eq_of_shows hv (by simp) .nil fun e => ?_
  constructor
  · intro he
    cases he
  · intro he
    obtain ⟨hentry, hfrom, -⟩ := he
    simp only [Bound.allowsFrom, decide_eq_true_iff] at hfrom
    have hle := UInt64.le_trans hfrom (hlast.greatest _ e hentry)
    exact absurd hroom (UInt64.not_lt.2 hle)

section Next

variable (h : CaughtUp s vote m last t) {e : Entry}
include h

/-- The entry that was appended is the end of the log. -/
theorem exists_logState_append (hindex : last.index < e.logId.index) :
    ∃ purged, (s.append [e]).logState = .ok ⟨purged, some e.logId⟩ := by
  obtain ⟨v, hv, hlast⟩ := h.log
  exact exists_logState_of_endsAt (hv.run (.append [e])) (hlast.insert hindex)

/-- The entry that was appended is read back. -/
theorem entries_append :
    (s.append [e]).entries (.included e.logId.index) (.included e.logId.index) = .ok [e] := by
  obtain ⟨v, hv, -⟩ := h.log
  exact entries_of_entry (hv.run (.append [e])) (if_pos rfl)

/-- **The next entry**: if it was appended and does not stop the storage, it is applied on top, with
the outcome that it has on the table, and then everything is applied again. -/
theorem apply_append_of_not_stops (hindex : last.index < e.logId.index)
    (hstops : stops s.policy e = false) :
    ∃ s', (s.append [e]).apply [e] = (.ok [outcomeOn t e], s') ∧ s'.policy = s.policy ∧
      CaughtUp s' vote (nextMembership m e) e.logId (tableAfter t e) := by
  obtain ⟨v, hv, hlast⟩ := h.log
  have hvote : (s.append [e]).readVote = .ok (some vote) := by
    rw [← h.vote]
    have htouches : Key.vote ∉ (Operation.append [e]).touches := by simp [Operation.touches]
    exact readVote_run htouches s
  have happlied : loadApplied (s.append [e]).disk = .ok ⟨some last, m, ⟨t, last.index⟩⟩ := by
    rw [← h.applied]
    have htouches : Key.applied ∉ (Operation.append [e]).touches := by simp [Operation.touches]
    exact loadApplied_congr (Operation.value_run htouches s)
  have hall : ∀ e' ∈ [e], stops (s.append [e]).policy e' = false := fun e' he' => by
    rw [List.mem_singleton.1 he']
    exact hstops
  exact exists_apply (h.sound.run (.append [e])) hvote happlied h.state.symm (hv.run (.append [e]))
    (hlast.insert hindex) (List.cons_ne_nil e []) hall rfl

/-- The next command has the outcome that it has on the table. -/
theorem apply_append (hindex : last.index < e.logId.index) {bytes : Bytes} {c : Command}
    (hpayload : e.payload = .normal bytes) (hdecode : Command.decode bytes = .ok c) :
    ∃ s', (s.append [e]).apply [e] = (.ok [outcomeOf (t.apply c)], s') ∧ s'.policy = s.policy ∧
      CaughtUp s' vote m e.logId (t.next c) := by
  obtain ⟨s', happly, hpolicy, hcaught⟩ :=
    h.apply_append_of_not_stops hindex (not_stops_command hpayload hdecode s.policy)
  rw [outcomeOn_command hpayload hdecode] at happly
  rw [nextMembership_command hpayload, tableAfter_command hpayload hdecode] at hcaught
  exact ⟨s', happly, hpolicy, hcaught⟩

end Next

end CaughtUp

/-! ## the first entries -/

/-- The entry that a cluster begins with. -/
def firstEntry (membership : Membership) : Entry := ⟨⟨⟨0, 0⟩, 0⟩, .membership membership⟩

/-- The entry that a leader begins with, behind that. -/
def blankEntry (leader : LeaderId) : Entry := ⟨⟨leader, 1⟩, .blank⟩

/-- A new storage of a node that has begun a cluster and stands for election. -/
def begun (policy : DecodePolicy) (membership : Membership) (candidacy : Vote) : Storage :=
  ((create policy).append [firstEntry membership]).saveVote candidacy

/-- A new storage of a node that has begun a cluster and leads it. -/
def led (policy : DecodePolicy) (membership : Membership) (candidacy vote : Vote) : Storage :=
  ((begun policy membership candidacy).saveVote vote).append [blankEntry vote.leaderId]

section First

variable (policy : DecodePolicy) (membership : Membership) (candidacy vote : Vote)

theorem shows_begun : Shows ((begun policy membership candidacy).saveVote vote).disk
    (LogView.empty.insert (firstEntry membership)) :=
  ((Shows.empty.run (s := create policy) (.append [firstEntry membership])).run
    (.saveVote candidacy)).run (.saveVote vote)

theorem shows_led : Shows (led policy membership candidacy vote).disk
    ((LogView.empty.insert (firstEntry membership)).insert (blankEntry vote.leaderId)) :=
  (shows_begun policy membership candidacy vote).run (.append [blankEntry vote.leaderId])

theorem endsAt_led :
    ((LogView.empty.insert (firstEntry membership)).insert (blankEntry vote.leaderId)).EndsAt
      ⟨vote.leaderId, 1⟩ :=
  (LogView.endsAt_first (firstEntry membership)).insert (e := blankEntry vote.leaderId)
    (by decide : (0 : UInt64) < 1)

/-- Both entries are read back. -/
theorem entries_led :
    (led policy membership candidacy vote).entries (.included 0) (.included 1)
      = .ok [firstEntry membership, blankEntry vote.leaderId] := by
  refine entries_eq_of_shows (shows_led policy membership candidacy vote) (by simp)
    (List.pairwise_pair.2 (by decide : (0 : UInt64) < 1)) fun e => ?_
  simp only [List.mem_cons, List.not_mem_nil, or_false, LogView.insert, LogView.empty,
    Bound.allowsFrom, Bound.allowsTo, decide_eq_true_iff]
  constructor
  · intro he
    rcases he with rfl | rfl
    · exact ⟨rfl, (by decide : (0 : UInt64) ≤ 0), (by decide : (0 : UInt64) ≤ 1)⟩
    · exact ⟨rfl, (by decide : (0 : UInt64) ≤ 1), (by decide : (1 : UInt64) ≤ 1)⟩
  · intro he
    obtain ⟨hentry, -, -⟩ := he
    by_cases hone : e.logId.index = (blankEntry vote.leaderId).logId.index
    · rw [if_pos hone, Option.some.injEq] at hentry
      exact .inr hentry.symm
    · by_cases hzero : e.logId.index = (firstEntry membership).logId.index
      · rw [if_neg hone, if_pos hzero, Option.some.injEq] at hentry
        exact .inl hentry.symm
      · rw [if_neg hone, if_neg hzero] at hentry
        cases hentry

/-- When both are applied, the table is empty. -/
theorem apply_led :
    ∃ s', (led policy membership candidacy vote).apply
          [firstEntry membership, blankEntry vote.leaderId] = (.ok [.applied, .applied], s') ∧
      s'.policy = policy ∧
      CaughtUp s' vote ⟨some ⟨⟨0, 0⟩, 0⟩, membership⟩ ⟨vote.leaderId, 1⟩ Table.empty := by
  have hsound : Sound (led policy membership candidacy vote) :=
    ((((Reachable.start (s := create policy) policy rfl).run
      (.append [firstEntry membership])).run (.saveVote candidacy)).run (.saveVote vote)).run
        (.append [blankEntry vote.leaderId]) |>.sound
  have hvote : (led policy membership candidacy vote).readVote = .ok (some vote) := by
    have hput : (led policy membership candidacy vote).disk.value .vote
        = some (Fixed.put vote) := rfl
    show readFixed _ .vote .vote = _
    rw [readFixed, hput]
    simp only [Fixed.get?_put]
  have happlied : loadApplied (led policy membership candidacy vote).disk = .ok Applied.initial :=
    loadApplied_of_none rfl
  have hstops : ∀ e ∈ [firstEntry membership, blankEntry vote.leaderId],
      stops (led policy membership candidacy vote).policy e = false := by
    intro e he
    simp only [List.mem_cons, List.not_mem_nil, or_false] at he
    rcases he with rfl | rfl <;> cases policy <;> rfl
  exact CaughtUp.exists_apply hsound hvote happlied rfl
    (shows_led policy membership candidacy vote) (endsAt_led membership vote)
    (List.cons_ne_nil _ _) hstops rfl

end First

end ControlPlane.Storage
