import ControlPlane.Proofs.Storage.Log
import Mathlib.Data.List.Chain

/-!
# ControlPlane.Proofs.Storage.Interruption

What is left of the log if an operation on it stops between two of its writes, because one of them
fails or because the node does.  The order of the writes decides.  Entries that are appended go in
the order of their indices, so the log has no hole after any number of them; entries that are purged
go from the first one on, which makes none either.  Entries that are truncated go from the first one
on as well, and there it does: all but the first few of them stay, behind a hole where those were
(`interrupted_log_change`).  The state of such a log does not show the hole (`halfTruncated_hole`).
-/

namespace ControlPlane.Storage

open Consensus
open Json (writeBytes)

/-! ## the indices of a log -/

/-- A log has its indices in order. -/
theorem pairwise_keys (d : Disk) : d.log.keys.Pairwise (· < ·) :=
  d.log.ordered.map _ fun _ _ hab => Std.compare_eq_lt.1 hab

/-- The indices that are left when others are removed. -/
theorem mem_keys_removed {indices : List UInt64} {d : Disk} {i : UInt64} :
    i ∈ (d.writeAll (indices.map .removeEntry)).log.keys ↔ i ∈ d.log.keys ∧ i ∉ indices := by
  rw [SortedMap.mem_keys_iff, SortedMap.mem_keys_iff, get?_writeAll_removeEntry]
  by_cases hi : i ∈ indices <;> simp [hi]

/-- An entry behind all others comes to stand at the end. -/
theorem keys_putEntry {d : Disk} {index : UInt64} (h : ∀ last ∈ d.log.keys.getLast?, last < index)
    (bytes : Bytes) :
    (d.write (.putEntry index bytes)).log.keys = d.log.keys ++ [index] := by
  have hgt : ∀ e, d.log.last? = some e → compare index e.1 = .gt := by
    intro e he
    refine Std.compare_eq_gt.2 (h e.1 ?_)
    rw [SortedMap.keys, List.getLast?_map]
    exact Option.mem_map_of_mem (·.1) he
  rw [SortedMap.keys, Disk.write, SortedMap.entries_insert_of_last bytes hgt, List.map_append]
  rfl

/-- Of indices in order, a first part has all that come before one of its own. -/
theorem mem_prefix_of_lt {first all : List UInt64} (hall : all.Pairwise (· < ·))
    (hfirst : first <+: all) {i j : UInt64} (hj : j ∈ first) (hi : i ∈ all) (hij : i < j) :
    i ∈ first := by
  obtain ⟨rest, rfl⟩ := hfirst
  refine (List.mem_append.1 hi).resolve_right fun hrest => ?_
  have hji : j < i := (List.pairwise_append.1 hall).2.2 j hj i hrest
  exact UInt64.lt_asymm hij hji

/-! ## logs without holes -/

/-- A log without a hole: between two of its indices, it has all. -/
def Gapless (d : Disk) : Prop :=
  ∀ i j k, i ∈ d.log.keys → k ∈ d.log.keys → i < j → j < k → j ∈ d.log.keys

/-- These entries go on where the log ends, one index behind the other. -/
def Continues (d : Disk) (entries : List Entry) : Prop :=
  (d.log.keys.getLast?.toList ++ entries.map (·.logId.index)).IsChain
    fun i j => j.toNat = i.toNat + 1

/-- The first few of such entries do so too. -/
theorem Continues.take {d : Disk} {entries : List Entry} (h : Continues d entries) (done : Nat) :
    Continues d (entries.take done) := by
  refine List.IsChain.prefix h ?_
  rw [List.map_take]
  exact (List.prefix_append_right_inj _).2 (List.take_prefix _ _)

/-- The first of such entries stands right behind the last one of the log. -/
theorem Continues.next {d : Disk} {e : Entry} {rest : List Entry} (h : Continues d (e :: rest)) :
    ∀ last ∈ d.log.keys.getLast?, e.logId.index.toNat = last.toNat + 1 := by
  intro last hlast
  rw [Continues, Option.mem_def.1 hlast] at h
  exact (List.isChain_cons_cons.1 h).1

/-- An index right behind the last one is greater. -/
theorem lt_of_next {d : Disk} {index : UInt64}
    (h : ∀ last ∈ d.log.keys.getLast?, index.toNat = last.toNat + 1) :
    ∀ last ∈ d.log.keys.getLast?, last < index := by
  intro last hlast
  rw [UInt64.lt_iff_toNat_lt, h last hlast]
  exact Nat.lt_succ_self _

/-- The other entries go on behind it. -/
theorem Continues.tail {d : Disk} {e : Entry} {rest : List Entry} (h : Continues d (e :: rest)) :
    Continues (d.write (.putEntry e.logId.index (writeBytes e))) rest := by
  rw [Continues, keys_putEntry (lt_of_next h.next), List.getLast?_concat]
  exact List.IsChain.right_of_append h

namespace Gapless

variable {d : Disk}

/-- An entry right behind the last one makes no hole. -/
theorem putEntry (h : Gapless d) {index : UInt64}
    (hnext : ∀ last ∈ d.log.keys.getLast?, index.toNat = last.toNat + 1) (bytes : Bytes) :
    Gapless (d.write (.putEntry index bytes)) := by
  have hkeys := keys_putEntry (lt_of_next hnext) bytes
  have hbelow : ∀ i ∈ d.log.keys, i < index := by
    have hpairwise := pairwise_keys (d.write (.putEntry index bytes))
    rw [hkeys] at hpairwise
    exact fun i hi => (List.pairwise_append.1 hpairwise).2.2 i hi index List.mem_cons_self
  intro i j k hi hk hij hjk
  rw [hkeys, List.mem_append, List.mem_singleton] at hi hk ⊢
  rcases hk with hk | rfl
  · rcases hi with hi | rfl
    · exact .inl (h i j k hi hk hij hjk)
    · exact absurd (hbelow k hk) (UInt64.lt_asymm (UInt64.lt_trans hij hjk))
  · rcases hi with hi | rfl
    · -- between an index and the new one, the last one stands just in front of the new one
      have hne : d.log.keys ≠ [] := List.ne_nil_of_mem hi
      have hlast := List.getLast?_eq_some_getLast hne
      have hle : j.toNat ≤ (d.log.keys.getLast hne).toNat := by
        have hsucc := hnext _ hlast
        rw [UInt64.lt_iff_toNat_lt] at hjk
        omega
      rcases Nat.eq_or_lt_of_le hle with heq | hlt
      · rw [UInt64.toNat_inj.1 heq]
        exact .inl (List.getLast_mem hne)
      · exact .inl (h i j _ hi (List.getLast_mem hne) hij (UInt64.lt_iff_toNat_lt.2 hlt))
    · exact absurd hjk (UInt64.lt_asymm hij)

/-- Entries that go on where the log ends make no hole. -/
theorem append (h : Gapless d) {entries : List Entry} (hentries : Continues d entries) :
    Gapless (d.writeAll (appendWrites entries)) := by
  induction entries generalizing d with
  | nil => exact h
  | cons e rest ih => exact ih (h.putEntry hentries.next (writeBytes e)) hentries.tail

/-- What goes from the first one on makes no hole. -/
theorem removed (h : Gapless d) {indices : List UInt64}
    (hfirst : ∀ j ∈ indices, ∀ i ∈ d.log.keys, i < j → i ∈ indices) :
    Gapless (d.writeAll (indices.map .removeEntry)) := by
  intro i j k hi hk hij hjk
  rw [mem_keys_removed] at hi hk ⊢
  exact ⟨h i j k hi.1 hk.1 hij hjk, fun hj => hi.2 (hfirst j hj i hi.1 hij)⟩

end Gapless

/-! ## interrupted operations -/

variable {s : Storage}

/-- After any number of writes, the entries that are appended make no hole. -/
theorem Gapless.append_interrupted (h : Gapless s.disk) {entries : List Entry}
    (hentries : Continues s.disk entries) (done : Nat) :
    Gapless (s.disk.writeAll (((Operation.append entries).writes s).take done)) := by
  have hfirst := h.append (hentries.take done)
  rwa [appendWrites, List.map_take] at hfirst

/-- Neither do those that are purged. -/
theorem Gapless.purge_interrupted (h : Gapless s.disk) (upTo : LogId) (done : Nat) :
    Gapless (s.disk.writeAll (((Operation.purge upTo).writes s).take done)) := by
  cases done with
  | zero => exact h
  | succ done =>
      have hnoted : Gapless (s.disk.write (.putValue .lastPurged (Fixed.put upTo))) := h
      rw [Operation.writes, purgeWrites, List.take_succ_cons, ← List.map_take]
      refine hnoted.removed fun j hj i hi hij => ?_
      have hle := of_decide_eq_true (List.mem_filter.1 (List.mem_of_mem_take hj)).2
      have hmem : i ∈ s.disk.log.keys.filter (· ≤ upTo.index) :=
        List.mem_filter.2 ⟨hi, decide_eq_true (UInt64.le_trans (UInt64.le_of_lt hij) hle)⟩
      exact mem_prefix_of_lt ((pairwise_keys s.disk).filter _) (List.take_prefix _ _) hj hmem hij

/-- The indices that a truncation is to remove, in the order in which it does. -/
def conflicting (s : Storage) (from' : UInt64) : List UInt64 :=
  s.disk.log.keys.filter (from' ≤ ·)

theorem pairwise_conflicting (s : Storage) (from' : UInt64) :
    (s.conflicting from').Pairwise (· < ·) :=
  (pairwise_keys s.disk).filter _

/-- A truncation that stops has removed the first few. -/
theorem mem_keys_truncate_interrupted {from' i : UInt64} {done : Nat} :
    i ∈ (s.disk.writeAll (((Operation.truncate from').writes s).take done)).log.keys ↔
      i ∈ s.disk.log.keys ∧ i ∉ (s.conflicting from').take done := by
  rw [Operation.writes, truncateWrites, ← List.map_take, mem_keys_removed]
  rfl

/-- A truncation that stops between two of its writes leaves an index behind one that it has
removed. -/
theorem exists_kept_behind_removed {from' : UInt64} {done : Nat} (hsome : 0 < done)
    (hrest : done < (s.conflicting from').length) :
    ∃ r ∈ (s.conflicting from').take done, ∃ i,
      i ∈ (s.disk.writeAll (((Operation.truncate from').writes s).take done)).log.keys ∧ r < i := by
  have hpairwise := pairwise_conflicting s from'
  rw [← List.take_append_drop done (s.conflicting from')] at hpairwise
  have hbehind := (List.pairwise_append.1 hpairwise).2.2
  obtain ⟨r, hr⟩ := List.exists_mem_of_length_pos (l := (s.conflicting from').take done) (by
    rw [List.length_take]; omega)
  obtain ⟨i, hi⟩ := List.exists_mem_of_length_pos (l := (s.conflicting from').drop done) (by
    rw [List.length_drop]; omega)
  have hstays : i ∉ (s.conflicting from').take done :=
    fun hremoved => UInt64.lt_irrefl i (hbehind i hremoved i hi)
  have hmem : i ∈ s.disk.log.keys := (List.mem_filter.1 (List.mem_of_mem_drop hi)).1
  exact ⟨r, hr, i, mem_keys_truncate_interrupted.2 ⟨hmem, hstays⟩, hbehind r hr i hi⟩

/-- A truncation that is complete leaves the indices in front of the one from which it drops. -/
theorem mem_keys_truncate_complete {from' i : UInt64} {done : Nat}
    (hall : (s.conflicting from').length ≤ done) :
    i ∈ (s.disk.writeAll (((Operation.truncate from').writes s).take done)).log.keys ↔
      i ∈ s.disk.log.keys ∧ i < from' := by
  rw [mem_keys_truncate_interrupted, List.take_of_length_le hall, conflicting, List.mem_filter,
    decide_eq_true_iff]
  refine and_congr_right fun hi => ?_
  simp [hi]

/-- A log is as a truncation should leave it if it has no hole, and no index at or behind one that
was removed. -/
def CutOff (d : Disk) (removed : List UInt64) : Prop :=
  Gapless d ∧ ∀ r ∈ removed, ∀ i ∈ d.log.keys, i < r

/-- A truncation that stops leaves such a log only in front of its first write or behind its
last. -/
theorem cutOff_truncate_iff (h : Gapless s.disk) (from' : UInt64) (done : Nat) :
    CutOff (s.disk.writeAll (((Operation.truncate from').writes s).take done))
        ((s.conflicting from').take done) ↔
      done = 0 ∨ (s.conflicting from').length ≤ done := by
  constructor
  · intro hcut
    by_contra hmiddle
    rw [not_or, not_le] at hmiddle
    obtain ⟨r, hr, i, hi, hri⟩ :=
      exists_kept_behind_removed (Nat.pos_of_ne_zero hmiddle.1) hmiddle.2
    exact UInt64.lt_asymm (hcut.2 r hr i hi) hri
  · rintro (rfl | hall)
    · exact ⟨h, fun r hr => by cases hr⟩
    · constructor
      · intro i j k hi hk hij hjk
        rw [mem_keys_truncate_complete hall] at hi hk ⊢
        exact ⟨h i j k hi.1 hk.1 hij hjk, UInt64.lt_trans hjk hk.2⟩
      · intro r hr i hi
        have hle := of_decide_eq_true (List.mem_filter.1 (List.mem_of_mem_take hr)).2
        exact UInt64.lt_of_lt_of_le ((mem_keys_truncate_complete hall).1 hi).2 hle

/-- **What an interruption leaves** of a log without a hole.  Appending entries that go on where it
ends makes none, after any number of writes, and neither does purging.  A truncation that has done
some of its writes has removed as many of the indices that it is to remove, the first ones; what is
left has a hole, or an index at or behind one that was removed, unless it has not begun or is
complete. -/
theorem interrupted_log_change (h : Gapless s.disk) :
    (∀ entries done, Continues s.disk entries →
      Gapless (s.disk.writeAll (((Operation.append entries).writes s).take done))) ∧
    (∀ upTo done, Gapless (s.disk.writeAll (((Operation.purge upTo).writes s).take done))) ∧
    ∀ from' done, ∃ d,
      s.disk.writeAll (((Operation.truncate from').writes s).take done) = d ∧
      (∀ i, i ∈ d.log.keys ↔ i ∈ s.disk.log.keys ∧ i ∉ (s.conflicting from').take done) ∧
      (CutOff d ((s.conflicting from').take done) ↔
        done = 0 ∨ (s.conflicting from').length ≤ done) :=
  ⟨fun _ done hentries => h.append_interrupted hentries done, h.purge_interrupted,
    fun from' done => ⟨_, rfl, fun _ => mem_keys_truncate_interrupted,
      cutOff_truncate_iff h from' done⟩⟩

/-- A log of three entries. -/
def threeEntries : Storage :=
  (create .halt).append
    [⟨⟨⟨1, 1⟩, 1⟩, .blank⟩, ⟨⟨⟨1, 1⟩, 2⟩, .blank⟩, ⟨⟨⟨1, 1⟩, 3⟩, .blank⟩]

/-- That log, when dropping its last two entries has stopped behind the first write. -/
def halfTruncated : Storage :=
  { threeEntries with
    disk := threeEntries.disk.writeAll (((Operation.truncate 2).writes threeEntries).take 1) }

/-- Its disk is opened, with a hole between the first entry and the last, and its log ends at an
entry that was to be dropped. -/
theorem halfTruncated_hole :
    Gapless threeEntries.disk ∧ Reachable halfTruncated ∧ ¬ Gapless halfTruncated.disk ∧
      halfTruncated.logState = .ok ⟨none, some ⟨⟨1, 1⟩, 3⟩⟩ := by
  have hthree : Reachable threeEntries := .run (.start .halt rfl) (.append _)
  have hcontinues : Continues Disk.empty
      [⟨⟨⟨1, 1⟩, 1⟩, .blank⟩, ⟨⟨⟨1, 1⟩, 2⟩, .blank⟩, ⟨⟨⟨1, 1⟩, 3⟩, .blank⟩] := by
    unfold Continues
    decide
  have hempty : Gapless Disk.empty := fun i _ _ hi => by cases hi
  have hgapless : Gapless threeEntries.disk := hempty.append hcontinues
  have hopen : open? halfTruncated.disk .halt = some halfTruncated := rfl
  have hlisted : halfTruncated.disk.log.entries
      = [Entry.mk ⟨⟨1, 1⟩, 1⟩ .blank, ⟨⟨⟨1, 1⟩, 3⟩, .blank⟩].map logged := rfl
  have hkeys : halfTruncated.disk.log.keys = [1, 3] := by rw [SortedMap.keys, hlisted]; rfl
  refine ⟨hgapless, .interrupt hthree (.truncate 2) 1 hopen, fun hhole => ?_,
    logState_of_listed hlisted rfl⟩
  have htwo : 2 ∈ halfTruncated.disk.log.keys := by
    refine hhole 1 2 3 ?_ ?_ (by decide) (by decide) <;> rw [hkeys] <;> decide
  rw [hkeys] at htwo
  exact absurd htwo (by decide)

end ControlPlane.Storage
