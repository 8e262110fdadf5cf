import ControlPlane.Proofs.Storage.Operation
import ControlPlane.Proofs.Table.Apply
import Mathlib.Data.List.Infix
import Mathlib.Logic.Function.Basic

/-!
# ControlPlane.Proofs.Storage.Agreement

Replicas that apply one log agree.  Whatever nodes do, in whatever order, and wherever they stop and
start again, each of them holds what the first entries of the log amount to (`Applied.after`), in
memory and on disk.  So nodes that have applied the log up to the same position hold the same
(`Replicas.agree`).  Policies, batches and snapshots make no difference to that.
-/

namespace ControlPlane.Storage

open Consensus
open Json (parseBytes writeBytes parseBytes_writeBytes)

/-! ## what a log amounts to -/

/-- The table behind an entry.  Only a command that the table accepts changes it. -/
def tableAfter (t : Table) (e : Entry) : Table :=
  match e.payload with
  | .normal bytes =>
    match Command.decode bytes with
    | .ok c => (t.apply c).toOption.getD t
    | .error _ => t
  | _ => t

/-- What is applied behind these entries, the first ones of a log. -/
def Applied.after (entries : List Entry) : Applied where
  lastApplied := entries.getLast?.map (·.logId)
  membership := entries.foldl nextMembership StoredMembership.initial
  state :=
    { table := entries.foldl tableAfter Table.empty
      lastAppliedIndex := (entries.getLast?.map (·.logId.index)).getD 0 }

theorem Applied.after_concat (entries : List Entry) (e : Entry) :
    Applied.after (entries ++ [e]) =
      ⟨some e.logId, nextMembership (Applied.after entries).membership e,
        ⟨tableAfter (Applied.after entries).state.table e, e.logId.index⟩⟩ := by
  simp [Applied.after]

/-- An entry that is applied changes the table as the log has it, under either policy. -/
theorem table_of_applyPayload {policy : DecodePolicy} {state state' : State} {e : Entry}
    {outcome : Outcome} (h : applyPayload policy state e = .ok (outcome, state')) :
    state'.table = tableAfter state.table e := by
  rw [applyPayload] at h
  rw [tableAfter]
  cases hpayload : e.payload with
  | normal bytes =>
      simp only [hpayload] at h ⊢
      cases hdecode : Command.decode bytes with
      | ok c =>
          rw [State.applyEncoded_of_ok hdecode] at h
          have hstate : (state.apply c).2 = state' := congrArg Prod.snd (Except.ok.inj h)
          rw [← hstate]
          exact State.table_apply state c
      | error reason =>
          rw [State.applyEncoded_of_error hdecode] at h
          cases policy with
          | halt => cases h
          | skip =>
              cases h
              rfl
  | blank =>
      simp only [hpayload] at h
      cases h
      rfl
  | membership m =>
      simp only [hpayload] at h
      cases h
      rfl

/-- What an entry reaches from the first entries of a log is what they and it amount to. -/
theorem reached_after {policy : DecodePolicy} {entries : List Entry} {e : Entry}
    {outcome : Outcome} {state : State}
    (h : applyPayload policy (Applied.after entries).state e = .ok (outcome, state)) :
    reached e (Applied.after entries).membership state = Applied.after (entries ++ [e]) := by
  rw [Applied.after_concat, reached, table_of_applyPayload h]

/-- Every stage is what the log amounts to up to there. -/
theorem stages_after (policy : DecodePolicy) (batch : List Entry) {entries : List Entry}
    {a : Applied} (ha : a ∈ stages policy (Applied.after entries) batch) :
    ∃ done, done <+: batch ∧ a = Applied.after (entries ++ done) := by
  induction batch generalizing entries with
  | nil => cases ha
  | cons e rest ih =>
      rw [stages] at ha
      split at ha
      · cases ha
      · next hpayload =>
          rw [reached_after hpayload] at ha
          rcases List.mem_cons.1 ha with rfl | ha
          · exact ⟨[e], List.prefix_append [e] rest, rfl⟩
          · obtain ⟨done, hdone, rfl⟩ := ih ha
            exact ⟨e :: done, List.cons_prefix_cons.2 ⟨rfl, hdone⟩, by simp⟩

/-- A log whose indices increase. -/
def Increasing (L : List Entry) : Prop := L.Pairwise fun a b => a.logId.index < b.logId.index

/-- Entries behind others have a position of their own. -/
theorem Increasing.eq_nil {p r : List Entry} (h : Increasing (p ++ r))
    (hlast : p.getLast?.map (·.logId) = (p ++ r).getLast?.map (·.logId)) : r = [] := by
  by_contra hr
  have hend : (p ++ r).getLast? = some (r.getLast hr) := by
    rw [List.getLast?_append_of_ne_nil _ hr, List.getLast?_eq_some_getLast hr]
  rw [hend, Option.map_some] at hlast
  obtain ⟨e, he, hid⟩ := Option.map_eq_some_iff.1 hlast
  have hlt : e.logId.index < (r.getLast hr).logId.index :=
    (List.pairwise_append.1 h).2.2 e (List.mem_of_getLast? he) _ (List.getLast_mem hr)
  rw [hid] at hlt
  exact UInt64.lt_irrefl _ hlt

/-- In a log, the position of the last entry tells how far one is. -/
theorem eq_of_last_eq {L p q : List Entry} (hL : Increasing L) (hp : p <+: L) (hq : q <+: L)
    (h : p.getLast?.map (·.logId) = q.getLast?.map (·.logId)) : p = q := by
  -- of two beginnings of a log one continues the other
  rcases List.prefix_or_prefix_of_prefix hp hq with ⟨r, rfl⟩ | ⟨r, rfl⟩
  · rw [Increasing.eq_nil (hL.sublist hq.sublist) h, List.append_nil]
  · rw [Increasing.eq_nil (hL.sublist hp.sublist) h.symm, List.append_nil]

/-! ## what a replica stores -/

/-- A snapshot of what the first entries of a log amount to. -/
structure Covers (snapshot : Snapshot) (entries : List Entry) : Prop where
  lastLogId : snapshot.about.lastLogId = (Applied.after entries).lastApplied
  membership : snapshot.about.lastMembership = (Applied.after entries).membership
  data : snapshot.data = writeBytes (Applied.after entries).state

/-- The snapshot of what the first entries amount to covers them. -/
theorem covers_snapshotOf (entries : List Entry) (number : UInt64) :
    Covers (snapshotOf (Applied.after entries) number) entries where
  lastLogId := rfl
  membership := rfl
  data := by simp only [snapshotOf]

/-- Installing such a snapshot, one has applied what it covers. -/
theorem Covers.installed_eq {snapshot : Snapshot} {entries : List Entry}
    (h : Covers snapshot entries) :
    installed snapshot (Applied.after entries).state = Applied.after entries := by
  rw [installed, h.lastLogId, h.membership]
  simp only [Applied.after, Option.map_map]
  cases entries.getLast? <;> rfl

/-- What a replica of a log may store under a name. -/
def Replicated (L : List Entry) : Key → Bytes → Prop
  | .applied, bytes => ∃ entries, entries <+: L ∧ bytes = writeBytes (Applied.after entries)
  | .currentSnapshot, bytes =>
    ∃ snapshot entries, entries <+: L ∧ Covers snapshot entries ∧ bytes = writeBytes snapshot
  | .snapshotIndex, bytes => ∃ n : UInt64, bytes = Fixed.put n
  | .vote, _ => True
  | .lastPurged, _ => True

namespace Replicated

variable {L entries : List Entry}

theorem applied (h : entries <+: L) :
    Replicated L .applied (writeBytes (Applied.after entries)) := ⟨entries, h, rfl⟩

theorem currentSnapshot (h : entries <+: L) {snapshot : Snapshot} (hc : Covers snapshot entries) :
    Replicated L .currentSnapshot (writeBytes snapshot) := ⟨snapshot, entries, h, hc, rfl⟩

theorem snapshotIndex (L : List Entry) (n : UInt64) :
    Replicated L .snapshotIndex (Fixed.put n) := ⟨n, rfl⟩

end Replicated

theorem Replicated.readable {L : List Entry} {key : Key} {bytes : Bytes}
    (h : Replicated L key bytes) : Readable key bytes := by
  cases key with
  | applied =>
      obtain ⟨entries, -, rfl⟩ := h
      exact ⟨_, rfl⟩
  | snapshotIndex => exact h
  | currentSnapshot => trivial
  | vote => trivial
  | lastPurged => trivial

/-- A replica of a log: what it stores is, and its memory agrees with that. -/
structure Replica (L : List Entry) (s : Storage) : Prop where
  disk : s.disk.All (Replicated L)
  inSync : s.InSync

/-- A storage that holds what these entries amount to, in memory and on disk. -/
structure Holds (s : Storage) (entries : List Entry) : Prop where
  memory : s.state = (Applied.after entries).state
  disk : loadApplied s.disk = .ok (Applied.after entries)

theorem Holds.applied_eq {s : Storage} {entries : List Entry} (h : s.Holds entries) :
    s.applied
      = .ok ((Applied.after entries).lastApplied, (Applied.after entries).membership) := by
  rw [applied, h.disk]
  rfl

/-- A replica of a log holds what some first entries of it amount to. -/
theorem Replica.holds {L : List Entry} {s : Storage} (h : Replica L s) :
    ∃ entries, entries <+: L ∧ s.Holds entries := by
  obtain ⟨a, ha, hstate⟩ := h.inSync
  cases hvalue : s.disk.value .applied with
  | none =>
      have hload := loadApplied_of_none hvalue
      cases hload.symm.trans ha
      exact ⟨[], List.nil_prefix, hstate.symm, hload⟩
  | some bytes =>
      obtain ⟨entries, hentries, rfl⟩ := h.disk _ _ hvalue
      have hload := loadApplied_of_some hvalue
      cases hload.symm.trans ha
      exact ⟨entries, hentries, hstate.symm, hload⟩

/-! ## what a replica does -/

/-- What a replica of a log may be asked.  Entries are applied where the log goes on, and snapshots
cover the first entries of the log. -/
def Admissible (L : List Entry) (s : Storage) : Operation → Prop
  | .apply batch =>
    ∃ before after membership, L = before ++ batch ++ after
      ∧ s.applied = .ok (before.getLast?.map (·.logId), membership)
  | .install snapshot => ∃ entries, entries <+: L ∧ Covers snapshot entries
  | _ => True

/-- The entries that a storage holds are those in front of the ones that it is to apply. -/
theorem Holds.eq_before {L entries before batch after : List Entry} (hL : Increasing L)
    {s : Storage} (h : s.Holds entries) (hentries : entries <+: L)
    (hsplit : L = before ++ batch ++ after) {membership : StoredMembership}
    (happlied : s.applied = .ok (before.getLast?.map (·.logId), membership)) :
    entries = before := by
  have hbefore : before <+: L := by
    rw [hsplit, List.append_assoc]
    exact List.prefix_append ..
  rw [h.applied_eq, Except.ok.injEq, Prod.mk.injEq] at happlied
  exact eq_of_last_eq hL hentries hbefore happlied.1

/-- **What a replica writes** is what replicas store. -/
theorem Replica.puts {L : List Entry} (hL : Increasing L) {s : Storage} (hs : Replica L s)
    {op : Operation} (hop : Admissible L s op) : ∀ w ∈ op.writes s, w.Puts (Replicated L) := by
  obtain ⟨entries, hentries, hholds⟩ := hs.holds
  intro w hw
  cases op with
  | append list =>
      obtain ⟨e, -, rfl⟩ := List.mem_map.1 hw
      trivial
  | truncate from' =>
      obtain ⟨index, -, rfl⟩ := List.mem_map.1 hw
      trivial
  | purge upTo =>
      rcases List.mem_cons.1 hw with rfl | hw
      · trivial
      · obtain ⟨index, -, rfl⟩ := List.mem_map.1 hw
        trivial
  | saveVote v =>
      cases List.mem_singleton.1 hw
      trivial
  | apply batch =>
      obtain ⟨before, after, membership, hsplit, happlied⟩ := hop
      -- what is held ends where the batch begins, so every stage is behind first entries of the log
      have hbefore := hholds.eq_before hL hentries hsplit happlied
      subst hbefore
      have hhere : { Applied.after entries with state := s.state } = Applied.after entries := by
        rw [hholds.memory]
      simp only [Operation.writes, hholds.disk, hhere] at hw
      obtain ⟨a, ha, rfl⟩ := List.mem_map.1 hw
      obtain ⟨done, hdone, rfl⟩ := stages_after s.policy batch ha
      refine Replicated.applied ?_
      rw [hsplit, List.append_assoc]
      exact (List.prefix_append_right_inj entries).2 (hdone.trans (List.prefix_append ..))
  | build =>
      simp only [Operation.writes, hholds.disk] at hw
      rcases List.mem_cons.1 hw with rfl | hw
      · exact Replicated.snapshotIndex L _
      · cases List.mem_singleton.1 hw
        exact Replicated.currentSnapshot hentries (covers_snapshotOf entries _)
  | install snapshot =>
      obtain ⟨covered, hcovered, hcovers⟩ := hop
      -- the snapshot is read back as it was written, wherever it was built
      simp only [Operation.writes, hcovers.data, parseBytes_writeBytes, hcovers.installed_eq] at hw
      cases List.mem_singleton.1 hw
      exact Write.puts_pair.2
        ⟨Replicated.applied hcovered, Replicated.currentSnapshot hcovered hcovers⟩

/-- A replica that does what it may be asked stays one. -/
theorem Replica.run {L : List Entry} (hL : Increasing L) {s : Storage} (hs : Replica L s)
    {op : Operation} (hop : Admissible L s op) : Replica L (op.run s) where
  disk := by
    rw [Operation.run_disk]
    exact hs.disk.writeAll (hs.puts hL hop)
  inSync := hs.inSync.run op

/-- The disk of a replica that stops after some of its writes. -/
theorem Replica.interrupted {L : List Entry} (hL : Increasing L) {s : Storage} (hs : Replica L s)
    {op : Operation} (hop : Admissible L s op) (done : Nat) :
    (s.disk.writeAll ((op.writes s).take done)).All (Replicated L) :=
  hs.disk.writeAll fun w hw => hs.puts hL hop w (List.mem_of_mem_take hw)

/-- Opening the disk of a replica gives a replica. -/
theorem Replica.of_open? {L : List Entry} {d : Disk} (hd : d.All (Replicated L))
    {policy : DecodePolicy} {s : Storage} (h : open? d policy = some s) : Replica L s := by
  obtain ⟨rfl, hsync⟩ := of_open?_eq_some h
  exact ⟨hd, hsync⟩

/-- The current snapshot of a replica covers the first entries of its log. -/
theorem Replica.covers {L : List Entry} {s : Storage} (hs : Replica L s) {snapshot : Snapshot}
    (h : s.currentSnapshot = .ok (some snapshot)) :
    ∃ entries, entries <+: L ∧ Covers snapshot entries := by
  rw [currentSnapshot] at h
  split at h
  · cases h
  · next bytes hvalue =>
      obtain ⟨stored, entries, hentries, hcovers, rfl⟩ := hs.disk _ _ hvalue
      rw [parseBytes_writeBytes] at h
      cases h
      exact ⟨entries, hentries, hcovers⟩

/-! ## nodes -/

namespace Replicas

variable {ι : Type}

/-- What a node may be asked among others: to apply the entries of the log that follow those it has
applied, to install the current snapshot of a node, or anything else. -/
def Permitted (L : List Entry) (nodes : ι → Storage) (i : ι) : Operation → Prop
  | .apply batch => Admissible L (nodes i) (.apply batch)
  | .install snapshot => ∃ j, (nodes j).currentSnapshot = .ok (some snapshot)
  | _ => True

/-- What a node may be asked among replicas, a replica may be asked. -/
theorem Permitted.admissible {L : List Entry} {nodes : ι → Storage}
    (hnodes : ∀ j, Replica L (nodes j)) {i : ι} {op : Operation} (hop : Permitted L nodes i op) :
    Admissible L (nodes i) op := by
  cases op with
  | install snapshot =>
      obtain ⟨j, hj⟩ := hop
      exact (hnodes j).covers hj
  | apply batch => exact hop
  | append entries => trivial
  | truncate from' => trivial
  | purge upTo => trivial
  | saveVote v => trivial
  | build => trivial

variable [DecidableEq ι]

/-- The nodes that a run can reach.  Each opens a new disk, with a policy of its own.  Then, in any
order, nodes do what they may be asked, are closed and opened again, or stop between two writes and
are opened again. -/
inductive Reachable (L : List Entry) : (ι → Storage) → Prop
  | start {nodes : ι → Storage} (policy : ι → DecodePolicy)
      (h : ∀ i, open? Disk.empty (policy i) = some (nodes i)) : Reachable L nodes
  | run {nodes : ι → Storage} (h : Reachable L nodes) (i : ι) {op : Operation}
      (hop : Permitted L nodes i op) : Reachable L (Function.update nodes i (op.run (nodes i)))
  | reopen {nodes : ι → Storage} (h : Reachable L nodes) (i : ι) {policy : DecodePolicy}
      {s : Storage} (hs : open? (nodes i).disk policy = some s) :
      Reachable L (Function.update nodes i s)
  | interrupt {nodes : ι → Storage} (h : Reachable L nodes) (i : ι) {op : Operation}
      (hop : Permitted L nodes i op) (done : Nat) {policy : DecodePolicy} {s : Storage}
      (hs : open? ((nodes i).disk.writeAll ((op.writes (nodes i)).take done)) policy = some s) :
      Reachable L (Function.update nodes i s)

/-- **Every node stays a replica** of the log. -/
theorem Reachable.replica {L : List Entry} (hL : Increasing L) {nodes : ι → Storage}
    (h : Reachable L nodes) (i : ι) : Replica L (nodes i) := by
  induction h generalizing i with
  | start policy h => exact Replica.of_open? Disk.All.empty (h i)
  | run h j hop ih =>
      rw [Function.update_apply]
      split
      · exact (ih j).run hL (hop.admissible ih)
      · exact ih i
  | reopen h j hs ih =>
      rw [Function.update_apply]
      split
      · exact Replica.of_open? (ih j).disk hs
      · exact ih i
  | interrupt h j hop done hs ih =>
      rw [Function.update_apply]
      split
      · exact Replica.of_open? ((ih j).interrupted hL (hop.admissible ih) done) hs
      · exact ih i

/-- A node can be opened again wherever it stops. -/
theorem Reachable.exists_open? {L : List Entry} (hL : Increasing L) {nodes : ι → Storage}
    (h : Reachable L nodes) {i : ι} {op : Operation} (hop : Permitted L nodes i op) (done : Nat)
    (policy : DecodePolicy) :
    ∃ s, open? ((nodes i).disk.writeAll ((op.writes (nodes i)).take done)) policy = some s :=
  Storage.exists_open? (fun key bytes hvalue => ((h.replica hL i).interrupted hL
    (hop.admissible (h.replica hL)) done key bytes hvalue).readable) policy

/-- **Replicas agree**: every node holds, in memory and on disk, what the entries of the log up to
its position amount to; nodes that report the same position hold the same state and the same
membership; and wherever a node stops, it can be opened again. -/
theorem agree {L : List Entry} (hL : Increasing L) {nodes : ι → Storage}
    (h : Reachable L nodes) :
    (∀ i, ∃ entries, entries <+: L ∧ (nodes i).Holds entries
        ∧ (nodes i).state.table = entries.foldl tableAfter Table.empty
        ∧ (nodes i).applied = .ok (entries.getLast?.map (·.logId),
            entries.foldl nextMembership StoredMembership.initial))
      ∧ (∀ i j last membership membership',
        (nodes i).applied = .ok (last, membership) → (nodes j).applied = .ok (last, membership') →
          (nodes i).state = (nodes j).state ∧ membership = membership'
            ∧ loadApplied (nodes i).disk = loadApplied (nodes j).disk)
      ∧ ∀ i op, Permitted L nodes i op → ∀ done policy, ∃ s,
        open? ((nodes i).disk.writeAll ((op.writes (nodes i)).take done)) policy = some s := by
  have hholds (i : ι) := (h.replica hL i).holds
  refine ⟨fun i => ?_, fun i j last membership membership' hi hj => ?_,
    fun i op hop done policy => h.exists_open? hL hop done policy⟩
  · obtain ⟨entries, hentries, hnode⟩ := hholds i
    exact ⟨entries, hentries, hnode, congrArg State.table hnode.memory, hnode.applied_eq⟩
  · obtain ⟨p, hp, hpi⟩ := hholds i
    obtain ⟨q, hq, hqj⟩ := hholds j
    rw [hpi.applied_eq, Except.ok.injEq, Prod.mk.injEq] at hi
    rw [hqj.applied_eq, Except.ok.injEq, Prod.mk.injEq] at hj
    obtain ⟨hlast, rfl⟩ := hi
    obtain ⟨hlast', rfl⟩ := hj
    have heq : p = q := eq_of_last_eq hL hp hq (hlast.trans hlast'.symm)
    subst heq
    exact ⟨hpi.memory.trans hqj.memory.symm, rfl, hpi.disk.trans hqj.disk.symm⟩

/-- A log whose second entry holds bytes that are no command. -/
def strayLog : List Entry :=
  [⟨⟨⟨1, 1⟩, 1⟩, .blank⟩, ⟨⟨⟨1, 1⟩, 2⟩, .normal [255]⟩]

/-- Two nodes, one of which passes over such bytes and has applied the log; the other is new. -/
def strayNodes : Bool → Storage :=
  Function.update (fun i => create (if i then .skip else .halt)) true
    (Operation.run (create .skip) (.apply strayLog))

theorem agree_strayNodes :
    Increasing strayLog ∧ Reachable strayLog strayNodes
      ∧ (∀ i, ∃ entries, entries <+: strayLog ∧ (strayNodes i).Holds entries)
      ∧ ∀ i j last membership membership',
        (strayNodes i).applied = .ok (last, membership) →
          (strayNodes j).applied = .ok (last, membership') →
            (strayNodes i).state = (strayNodes j).state ∧ membership = membership' := by
  have hlog : Increasing strayLog := by simp [Increasing, strayLog]
  have hstart : Reachable strayLog fun i : Bool => create (if i then .skip else .halt) :=
    .start (fun i => if i then .skip else .halt) fun _ => rfl
  have hnodes : Reachable strayLog strayNodes :=
    hstart.run true ⟨[], [], StoredMembership.initial, rfl, rfl⟩
  obtain ⟨hheld, hsame, -⟩ := agree hlog hnodes
  refine ⟨hlog, hnodes, fun i => ?_, fun i j last membership membership' hi hj => ?_⟩
  · obtain ⟨entries, hentries, hholds, -⟩ := hheld i
    exact ⟨entries, hentries, hholds⟩
  · obtain ⟨hstate, hmembership, -⟩ := hsame i j last membership membership' hi hj
    exact ⟨hstate, hmembership⟩

end Replicas

end ControlPlane.Storage
