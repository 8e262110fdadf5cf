import ControlPlane.Proofs.Storage.Durability
import ControlPlane.Proofs.Storage.Tree
import Mathlib.Data.List.Pairwise

/-!
# ControlPlane.Proofs.Storage.Log

The stored log is a finite map from indices to entries, with the position that was purged last
(`LogView`).  A disk shows such a map if it holds the bytes of each of its entries at its index and
nothing else (`Shows`).  Each write to the log is one change of the map, so every operation is
(`Shows.run`), and reopening changes nothing; so the map tells what the log holds whatever was done
before (`exists_replay`), and the tree behind it goes the same way (`treeOf_replay`).  The entries
of a range are found by a scan that stops at the first entry outside it.  That is sound because an
entry is filed under its own index, and in the order of the indices (`entries_of_shows`).
-/

namespace ControlPlane.Storage

open Consensus
open Json (writeBytes writeBytes_injective)

/-! ## the log as a map -/

/-- A log as a map from indices to entries, and the position that was purged last. -/
structure LogView where
  entry : UInt64 → Option Entry
  lastPurged : Option LogId

namespace LogView

/-- A log without entries, of which nothing was purged. -/
def empty : LogView := ⟨fun _ => none, none⟩

/-- Sets the entry at an index, which is its own. -/
def insert (v : LogView) (e : Entry) : LogView :=
  { v with entry := fun i => if i = e.logId.index then some e else v.entry i }

/-- The log behind an operation.  Entries are appended in order, so of two at one index the later
counts. -/
def after (v : LogView) : Operation → LogView
  | .append entries => entries.foldl insert v
  | .truncate from' => { v with entry := fun i => if i < from' then v.entry i else none }
  | .purge upTo => ⟨fun i => if upTo.index < i then v.entry i else none, some upTo⟩
  | .saveVote _ => v
  | .apply _ => v
  | .build => v
  | .install _ => v

/-- Only an operation on the log changes it. -/
theorem after_of_not_onLog {op : Operation} (h : ¬ op.OnLog) (v : LogView) : v.after op = v := by
  cases op with
  | append entries => exact absurd trivial h
  | truncate from' => exact absurd trivial h
  | purge upTo => exact absurd trivial h
  | saveVote vote => rfl
  | apply entries => rfl
  | build => rfl
  | install snapshot => rfl

end LogView

/-! ## a disk that shows a log -/

/-- A disk that holds just this log: each entry at its own index, and the position purged last. -/
structure Shows (d : Disk) (v : LogView) : Prop where
  entry : ∀ i, d.log.get? i = (v.entry i).map writeBytes
  index : ∀ i e, v.entry i = some e → e.logId.index = i
  lastPurged : d.value .lastPurged = v.lastPurged.map Fixed.put

namespace Shows

variable {d : Disk} {v : LogView}

theorem empty : Shows Disk.empty LogView.empty where
  entry i := SortedMap.get?_empty i
  index i e h := by cases h
  lastPurged := rfl

/-- Writing an entry sets it in the map. -/
theorem putEntry (h : Shows d v) (e : Entry) :
    Shows (d.write (.putEntry e.logId.index (writeBytes e))) (v.insert e) where
  entry i := by
    simp only [Disk.write, SortedMap.get?_insert, LogView.insert, Std.compare_eq_iff_eq]
    by_cases hi : i = e.logId.index
    · rw [if_pos hi, if_pos hi, Option.map_some]
    · rw [if_neg hi, if_neg hi, h.entry]
  index i e' he' := by
    simp only [LogView.insert] at he'
    by_cases hi : i = e.logId.index
    · rw [if_pos hi, Option.some.injEq] at he'
      rw [← he', hi]
    · rw [if_neg hi] at he'
      exact h.index i e' he'
  lastPurged := h.lastPurged

theorem append (h : Shows d v) (es : List Entry) :
    Shows (d.writeAll (appendWrites es)) (es.foldl LogView.insert v) := by
  induction es generalizing d v with
  | nil => exact h
  | cons e rest ih => exact ih (h.putEntry e)

end Shows

/-- Removing indices leaves the others. -/
theorem get?_writeAll_removeEntry (indices : List UInt64) (d : Disk) (i : UInt64) :
    (d.writeAll (indices.map .removeEntry)).log.get? i
      = if i ∈ indices then none else d.log.get? i := by
  induction indices generalizing d with
  | nil => rfl
  | cons j rest ih =>
      have hhead : (d.write (.removeEntry j)).log.get? i
          = if i = j then none else d.log.get? i := by
        simp only [Disk.write, SortedMap.get?_erase, bne_iff_ne, ne_eq, Std.compare_eq_iff_eq]
        by_cases hi : i = j
        · rw [if_pos hi, if_neg (not_not.2 hi.symm)]
        · rw [if_neg hi, if_pos (Ne.symm hi)]
      show ((d.write (.removeEntry j)).writeAll (rest.map .removeEntry)).log.get? i = _
      rw [ih, hhead]
      by_cases hi : i = j
      · subst hi
        simp
      · simp [hi]

/-- Removing the indices of the log that pass a test leaves those that do not. -/
theorem get?_writeAll_removed (remove : UInt64 → Bool) (d : Disk) (i : UInt64) :
    (d.writeAll ((d.log.keys.filter remove).map .removeEntry)).log.get? i
      = if remove i then none else d.log.get? i := by
  rw [get?_writeAll_removeEntry]
  by_cases hi : remove i = true
  · rw [if_pos hi]
    by_cases hmem : i ∈ d.log.keys
    · rw [if_pos (List.mem_filter.2 ⟨hmem, hi⟩)]
    · have hnone : d.log.get? i = none := by
        refine Option.eq_none_iff_forall_ne_some.2 fun bytes hget => hmem ?_
        exact List.mem_map.2 ⟨(i, bytes), SortedMap.get?_eq_some_iff.1 hget, rfl⟩
      rw [hnone, ite_self]
  · have hnot : i ∉ d.log.keys.filter remove := fun h => hi (List.mem_filter.1 h).2
    rw [if_neg hnot, if_neg hi]

/-- Removing indices leaves the named values. -/
theorem value_writeAll_removeEntry (indices : List UInt64) (d : Disk) (key : Key) :
    (d.writeAll (indices.map .removeEntry)).value key = d.value key := by
  refine value_writeAll (fun w hw => ?_) d
  obtain ⟨index, -, rfl⟩ := List.mem_map.1 hw
  trivial

namespace Shows

variable {d : Disk} {v : LogView}

/-- Removing indices keeps the entries at the others. -/
theorem removed (h : Shows d v) {remove : UInt64 → Bool} {keep : UInt64 → Prop}
    [DecidablePred keep] (hkeep : ∀ i, remove i = true ↔ ¬ keep i) :
    Shows (d.writeAll ((d.log.keys.filter remove).map .removeEntry))
      { v with entry := fun i => if keep i then v.entry i else none } where
  entry i := by
    show _ = (if keep i then v.entry i else none).map writeBytes
    rw [get?_writeAll_removed]
    by_cases hi : keep i
    · rw [if_pos hi, if_neg (fun hr => (hkeep i).1 hr hi), h.entry]
    · rw [if_neg hi, if_pos ((hkeep i).2 hi), Option.map_none]
  index i e he := by
    by_cases hi : keep i
    · simp only [if_pos hi] at he
      exact h.index i e he
    · simp only [if_neg hi] at he
      cases he
  lastPurged := by
    rw [value_writeAll_removeEntry]
    exact h.lastPurged

/-- Noting the position that is purged. -/
theorem note (h : Shows d v) (upTo : LogId) :
    Shows (d.write (.putValue .lastPurged (Fixed.put upTo)))
      { v with lastPurged := some upTo } where
  entry := h.entry
  index := h.index
  lastPurged := rfl

/-- **Every operation** does to the log what it does to the map. -/
theorem run {s : Storage} (h : Shows s.disk v) (op : Operation) :
    Shows (op.run s).disk (v.after op) := by
  by_cases hop : op.OnLog
  · cases op with
    | append entries => exact h.append entries
    | truncate from' =>
        have hkeep (i : UInt64) : decide (from' ≤ i) = true ↔ ¬ i < from' := by
          rw [decide_eq_true_iff, UInt64.not_lt]
        exact h.removed hkeep
    | purge upTo =>
        have hkeep (i : UInt64) : decide (i ≤ upTo.index) = true ↔ ¬ upTo.index < i := by
          rw [decide_eq_true_iff, UInt64.not_lt]
        exact (h.note upTo).removed hkeep
    | saveVote vote => exact hop.elim
    | apply entries => exact hop.elim
    | build => exact hop.elim
    | install snapshot => exact hop.elim
  · have hkey : Key.lastPurged ∉ op.touches := by
      cases op <;> simp_all [Operation.touches, Operation.OnLog]
    rw [LogView.after_of_not_onLog hop]
    exact
      { entry := fun i => by rw [Operation.log_run hop, h.entry]
        index := h.index
        lastPurged := by rw [Operation.value_run hkey, h.lastPurged] }

end Shows

/-! ## any sequence of events -/

/-- What happens to a storage: an operation, or it is closed and its disk opened again. -/
inductive Event
  | run (op : Operation)
  | reopen (policy : DecodePolicy)

/-- The storage behind an event, if its disk can be opened. -/
def Event.next? (s : Storage) : Event → Option Storage
  | .run op => some (op.run s)
  | .reopen policy => open? s.disk policy

/-- The log behind an event. -/
def LogView.next (v : LogView) : Event → LogView
  | .run op => v.after op
  | .reopen _ => v

/-- An event leads to a storage that shows the log behind it. -/
theorem exists_next {s : Storage} {v : LogView} (hs : Reachable s) (h : Shows s.disk v)
    (event : Event) :
    ∃ s', event.next? s = some s' ∧ Reachable s' ∧ Shows s'.disk (v.next event) := by
  cases event with
  | run op => exact ⟨op.run s, rfl, hs.run op, h.run op⟩
  | reopen policy =>
      have hopen := hs.sound.open?_eq policy
      exact ⟨{ s with policy }, hopen, hs.reopen hopen, h⟩

/-- So does a sequence of them. -/
theorem exists_replay {s : Storage} {v : LogView} (hs : Reachable s) (h : Shows s.disk v)
    (events : List Event) :
    ∃ s', events.foldlM Event.next? s = some s' ∧ Reachable s' ∧
      Shows s'.disk (events.foldl LogView.next v) := by
  induction events generalizing s v with
  | nil => exact ⟨s, rfl, hs, h⟩
  | cons event rest ih =>
      obtain ⟨s', hnext, hs', h'⟩ := exists_next hs h event
      obtain ⟨s'', hrest, hs'', h''⟩ := ih hs' h'
      refine ⟨s'', ?_, hs'', h''⟩
      rw [List.foldlM_cons, hnext]
      exact hrest

/-- The tree behind an event. -/
def Tree.next (t : Tree) : Event → Tree
  | .run op => t.after op
  | .reopen _ => t

/-- The log and its tree go through the same events. -/
theorem treeOf_replay {s s' : Storage} {events : List Event}
    (h : events.foldlM Event.next? s = some s') :
    treeOf s'.disk.log = events.foldl Tree.next (treeOf s.disk.log) := by
  induction events generalizing s with
  | nil =>
      cases h
      rfl
  | cons event rest ih =>
      rw [List.foldlM_cons] at h
      obtain ⟨mid, hnext, hrest⟩ := Option.bind_eq_some_iff.1 h
      rw [ih hrest, List.foldl_cons]
      cases event with
      | run op =>
          cases hnext
          rw [treeOf_run, Tree.next]
      | reopen policy => rw [(of_open?_eq_some hnext).1, Tree.next]

/-! ## ranges -/

/-- A scan up to the first failure finds all that pass, if what passes comes first. -/
theorem takeWhile_eq_filter {α : Type} {p : α → Bool} {l : List α}
    (h : l.Pairwise fun a b => p b = true → p a = true) : l.takeWhile p = l.filter p := by
  induction l with
  | nil => rfl
  | cons a rest ih =>
      obtain ⟨hhead, hrest⟩ := List.pairwise_cons.1 h
      by_cases ha : p a = true
      · rw [List.takeWhile_cons_of_pos ha, List.filter_cons_of_pos ha, ih hrest]
      · rw [List.takeWhile_cons_of_neg ha, List.filter_cons_of_neg ha,
          List.filter_eq_nil_iff.2 fun b hb hpass => ha (hhead b hb hpass)]

namespace Bound

/-- A range begins at its first index, unless that would lie behind the greatest. -/
theorem start_le_iff {low : Bound} (h : low ≠ .excluded 18446744073709551615) (i : UInt64) :
    low.start ≤ i ↔ low.allowsFrom i = true := by
  cases low with
  | included j => simp only [start, allowsFrom, decide_eq_true_iff]
  | excluded j =>
      have hj : j.toNat + 1 < 2 ^ 64 := by
        have hne : j.toNat ≠ 18446744073709551615 := fun heq =>
          h (congrArg Bound.excluded (UInt64.toNat_inj.1 heq))
        have hlt := j.toNat_lt
        omega
      have hstart : (j + 1).toNat = j.toNat + 1 := by
        rw [UInt64.toNat_add, UInt64.toNat_one, Nat.mod_eq_of_lt hj]
      simp only [start, allowsFrom, decide_eq_true_iff, UInt64.le_iff_toNat_le,
        UInt64.lt_iff_toNat_lt, hstart, Nat.succ_le_iff]
  | unbounded => simp only [start, allowsFrom, UInt64.zero_le]

/-- What is in front of an index in a range is not behind the range. -/
theorem allowsTo_of_lt {high : Bound} {i j : UInt64} (hij : i < j) (h : high.allowsTo j = true) :
    high.allowsTo i = true := by
  cases high with
  | included k =>
      simp only [allowsTo, decide_eq_true_iff] at h ⊢
      exact UInt64.le_of_lt (UInt64.lt_of_lt_of_le hij h)
  | excluded k =>
      simp only [allowsTo, decide_eq_true_iff] at h ⊢
      exact UInt64.lt_trans hij h
  | unbounded => rfl

end Bound

/-- The entries of a log in the order of their indices. -/
structure Lists (v : LogView) (listed : List Entry) : Prop where
  ordered : listed.Pairwise fun a b => a.logId.index < b.logId.index
  mem_iff : ∀ e, e ∈ listed ↔ v.entry e.logId.index = some e

theorem logged_injective : Function.Injective logged := by
  intro a b h
  rw [logged, logged, Prod.mk.injEq] at h
  exact writeBytes_injective h.2

/-- A disk that shows a log files its entries in order, each under its own index. -/
theorem Shows.exists_lists {d : Disk} {v : LogView} (h : Shows d v) :
    ∃ listed : List Entry, d.log.entries = listed.map logged ∧ Lists v listed := by
  obtain ⟨listed, hlisted⟩ : ∃ listed : List Entry, d.log.entries = listed.map logged := by
    refine exists_listed fun index bytes hget => ?_
    rw [h.entry, Option.map_eq_some_iff] at hget
    obtain ⟨e, he, rfl⟩ := hget
    exact ⟨e, h.index index e he, rfl⟩
  refine ⟨listed, hlisted, ?_, fun e => ?_⟩
  · have hordered := d.log.ordered
    rw [hlisted, List.pairwise_map] at hordered
    exact hordered.imp fun hlt => compareOfLessAndEq_eq_lt.1 hlt
  · rw [← List.mem_map_of_injective logged_injective, ← hlisted]
    show (e.logId.index, writeBytes e) ∈ d.log.entries ↔ _
    rw [← SortedMap.get?_eq_some_iff, h.entry, Option.map_eq_some_iff]
    constructor
    · rintro ⟨e', he', hbytes⟩
      rw [he', writeBytes_injective hbytes]
    · intro he
      exact ⟨e, he, rfl⟩

/-- A range is scanned from its first index to its last one: since the indices come in order, those
of a range stand together. -/
theorem scan_eq_filter {α : Type} {index : α → UInt64} {l : List α}
    (h : l.Pairwise fun a b => index a < index b) {low high : Bound}
    (hlow : low ≠ .excluded 18446744073709551615) :
    ((l.filter fun a => low.start ≤ index a).takeWhile fun a =>
        low.allowsFrom (index a) && high.allowsTo (index a))
      = l.filter fun a => low.allowsFrom (index a) && high.allowsTo (index a) := by
  have hstart : (l.filter fun a => low.start ≤ index a)
      = l.filter fun a => low.allowsFrom (index a) := by
    refine List.filter_congr fun a _ => ?_
    rw [Bool.eq_iff_iff, decide_eq_true_iff, Bound.start_le_iff hlow]
  rw [hstart, takeWhile_eq_filter, List.filter_filter]
  · refine List.filter_congr fun a _ => ?_
    cases low.allowsFrom (index a) <;> simp
  · refine (h.filter _).imp_of_mem fun {a b} ha hb hab hpass => ?_
    rw [Bool.and_eq_true] at hpass ⊢
    exact ⟨(List.mem_filter.1 ha).2, Bound.allowsTo_of_lt hab hpass.2⟩

/-- A range of the log has just the entries of the map in that range, in order. -/
theorem entries_of_shows {s : Storage} {v : LogView} (h : Shows s.disk v) {low : Bound}
    (hlow : low ≠ .excluded 18446744073709551615) (high : Bound) :
    ∃ es, s.entries low high = .ok es ∧
      (es.Pairwise fun a b => a.logId.index < b.logId.index) ∧
      ∀ e, e ∈ es ↔ v.entry e.logId.index = some e ∧
        low.allowsFrom e.logId.index = true ∧ high.allowsTo e.logId.index = true := by
  obtain ⟨listed, hlisted, hlists⟩ := h.exists_lists
  refine ⟨_, entries_of_listed hlisted low high, ?_, fun e => ?_⟩
  · rw [scan_eq_filter hlists.ordered hlow]
    exact hlists.ordered.filter _
  · rw [scan_eq_filter hlists.ordered hlow, List.mem_filter, hlists.mem_iff, Bool.and_eq_true]

/-- The state of the log: it ends with the entry at the greatest index, or where it was purged. -/
theorem logState_of_shows {s : Storage} {v : LogView} (h : Shows s.disk v) :
    ∃ last, s.logState = .ok ⟨v.lastPurged, last⟩ ∧
      ((∃ i e, v.entry i = some e ∧ (∀ j e', v.entry j = some e' → j ≤ i) ∧ last = some e.logId) ∨
        ((∀ i, v.entry i = none) ∧ last = v.lastPurged)) := by
  obtain ⟨listed, hlisted, hlists⟩ := h.exists_lists
  have hpurged : readFixed s.disk .lastPurged .logs = .ok v.lastPurged := by
    rw [readFixed, h.lastPurged]
    cases v.lastPurged with
    | none => rfl
    | some id => simp only [Option.map_some, Fixed.get?_put]
  have hmem {i : UInt64} {e : Entry} (he : v.entry i = some e) : e ∈ listed :=
    (hlists.mem_iff e).2 (by rw [h.index i e he, he])
  refine ⟨_, logState_of_listed hlisted hpurged, ?_⟩
  cases hlast : listed.getLast? with
  | none =>
      have hnil : listed = [] := List.getLast?_eq_none_iff.1 hlast
      refine .inr ⟨fun i => Option.eq_none_iff_forall_ne_some.2 fun e he => ?_, rfl⟩
      have hnot := hmem he
      rw [hnil] at hnot
      cases hnot
  | some e =>
      have hin : e ∈ listed := List.mem_of_getLast? hlast
      refine .inl ⟨e.logId.index, e, (hlists.mem_iff e).1 hin, fun j e' he' => ?_, rfl⟩
      obtain ⟨front, rfl⟩ := List.getLast?_eq_some_iff.1 hlast
      rw [← h.index j e' he']
      rcases List.mem_append.1 (hmem he') with hfront | hend
      · have hlt := (List.pairwise_append.1 hlists.ordered).2.2 e' hfront e (by simp)
        exact UInt64.le_of_lt hlt
      · rw [List.mem_singleton.1 hend]
        exact UInt64.le_refl _

/-! ## the log and its map -/

/-- **The log is a map**: after any operations and reopenings of a new storage, whatever they were
asked, the storage runs and its log is the map that they amount to.  Every entry stands at its own
index.  A range has just the entries of the map in it, in the order of their indices, whatever its
ends are; only one that begins behind the greatest index has no first index.  The state of the log
is the position purged last and that of the entry at the greatest index, or the former alone if
there is no entry.  The keys under which entries are filed have the order of the indices. -/
theorem log_refines (policy : DecodePolicy) (events : List Event) :
    ∃ s v, events.foldlM Event.next? (create policy) = some s ∧
      v = events.foldl LogView.next LogView.empty ∧
      (∀ i e, v.entry i = some e → e.logId.index = i) ∧
      (∀ low high, low ≠ .excluded 18446744073709551615 →
        ∃ es, s.entries low high = .ok es ∧
          (es.Pairwise fun a b => a.logId.index < b.logId.index) ∧
          ∀ e, e ∈ es ↔ v.entry e.logId.index = some e ∧
            low.allowsFrom e.logId.index = true ∧ high.allowsTo e.logId.index = true) ∧
      (∃ last, s.logState = .ok ⟨v.lastPurged, last⟩ ∧
        ((∃ i e, v.entry i = some e ∧ (∀ j e', v.entry j = some e' → j ≤ i) ∧
            last = some e.logId) ∨
          ((∀ i, v.entry i = none) ∧ last = v.lastPurged))) ∧
      ∀ i j, logKey i < logKey j ↔ i < j := by
  have hnew : Reachable (create policy) := .start policy rfl
  obtain ⟨s, hreplay, -, hshows⟩ := exists_replay hnew Shows.empty events
  exact ⟨s, _, hreplay, rfl, hshows.index, fun low high hlow => entries_of_shows hshows hlow high,
    logState_of_shows hshows, logKey_lt_iff⟩

/-- A log whose entries are replaced and purged at the ends of a byte, with a restart between. -/
def boundaryEvents : List Event :=
  [.run (.append [⟨⟨⟨1, 1⟩, 255⟩, .blank⟩, ⟨⟨⟨1, 1⟩, 256⟩, .normal [7]⟩,
      ⟨⟨⟨1, 1⟩, 18446744073709551615⟩, .blank⟩]),
    .run (.append [⟨⟨⟨2, 1⟩, 256⟩, .blank⟩]), .reopen .skip, .run (.purge ⟨⟨1, 1⟩, 255⟩)]

theorem log_refines_boundaryEvents :
    ∃ s, boundaryEvents.foldlM Event.next? (create .halt) = some s ∧
      ∃ es, s.entries (.excluded 18446744073709551614) .unbounded = .ok es ∧
        ⟨⟨⟨1, 1⟩, 18446744073709551615⟩, .blank⟩ ∈ es ∧ ⟨⟨⟨2, 1⟩, 256⟩, .blank⟩ ∉ es := by
  obtain ⟨s, v, hreplay, rfl, -, hranges, -⟩ := log_refines .halt boundaryEvents
  obtain ⟨es, hes, -, hmem⟩ := hranges (.excluded 18446744073709551614) .unbounded (by decide)
  refine ⟨s, hreplay, es, hes, (hmem _).2 ⟨?_, ?_, rfl⟩, fun h => ?_⟩
  · rfl
  · decide
  · have hallows := ((hmem _).1 h).2.1
    revert hallows
    decide

end ControlPlane.Storage
