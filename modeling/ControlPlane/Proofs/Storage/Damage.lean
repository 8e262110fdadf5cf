import ControlPlane.Proofs.Storage.Sides

/-!
# ControlPlane.Proofs.Storage.Damage

What becomes of a storage some of whose log entries cannot be read.  Only questions about the log
read entries.  A range is read from its first index on, and fails where the scan meets bytes that
are no entry, which may be one entry behind the range (`stopped_iff`); the log state is read from
the last entry alone (`logState_error_iff`).  Operations on the log go by indices, so they do to the
damaged entries what they do to the others, and truncating or purging the log repairs it
(`damaged_run`, `entryAt_run`).  The state and the vote do not depend on the log at all
(`damage_contained`).
-/

namespace ControlPlane.Storage

open Consensus
open Json (parseBytes writeBytes parseBytes_writeBytes)

/-! ## stored entries -/

/-- The entry that stored bytes are, if they can be read. -/
def entryOf? (bytes : Bytes) : Option Entry := (parseBytes bytes).toOption

theorem entryOf?_writeBytes (e : Entry) : entryOf? (writeBytes e) = some e := by
  rw [entryOf?, parseBytes_writeBytes]
  rfl

/-- The entry at an index, if there is one that can be read. -/
def Disk.entryAt? (d : Disk) (i : UInt64) : Option Entry := (d.log.get? i).bind entryOf?

/-- An index at which the log has bytes that are no entry. -/
def Disk.Damaged (d : Disk) (i : UInt64) : Prop :=
  ∃ bytes, d.log.get? i = some bytes ∧ entryOf? bytes = none

/-- A log whose entries stand at their own indices, as far as they can be read. -/
def Filed (d : Disk) : Prop := ∀ i e, d.entryAt? i = some e → e.logId.index = i

theorem readWhile_cons_of_none {bytes : Bytes} (h : entryOf? bytes = none) (inRange : UInt64 → Bool)
    (i : UInt64) (rest : List (UInt64 × Bytes)) :
    readWhile inRange ((i, bytes) :: rest) = .error (.unreadable .logs) := by
  unfold entryOf? at h
  rw [readWhile]
  cases hparse : parseBytes (α := Entry) bytes with
  | error fault => rfl
  | ok e => simp [hparse, Except.toOption] at h

theorem readWhile_cons_of_some {bytes : Bytes} {e : Entry} (h : entryOf? bytes = some e)
    (inRange : UInt64 → Bool) (i : UInt64) (rest : List (UInt64 × Bytes)) :
    readWhile inRange ((i, bytes) :: rest)
      = if inRange e.logId.index then (readWhile inRange rest).map (e :: ·) else .ok [] := by
  unfold entryOf? at h
  rw [readWhile]
  cases hparse : parseBytes (α := Entry) bytes with
  | error fault => simp [hparse, Except.toOption] at h
  | ok e' =>
      simp only [hparse, Except.toOption, Option.some.injEq] at h
      subst h
      simp only
      split
      · cases readWhile inRange rest <;> rfl
      · rfl

/-! ## scanning a range -/

/-- A scan that comes to bytes that are no entry before it comes to the end of the range. -/
def Meets (inRange : UInt64 → Bool) (l : List (UInt64 × Bytes)) : Prop :=
  ∃ before p after, l = before ++ p :: after ∧ entryOf? p.2 = none ∧
    ∀ q ∈ before, inRange q.1 = true

section Scan

variable {inRange : UInt64 → Bool}

theorem not_meets_nil : ¬ Meets inRange [] := by
  rintro ⟨before, p, after, h, -⟩
  cases before <;> cases h

theorem meets_cons_of_none {p : UInt64 × Bytes} (h : entryOf? p.2 = none)
    (rest : List (UInt64 × Bytes)) : Meets inRange (p :: rest) :=
  ⟨[], p, rest, rfl, h, fun q hq => by cases hq⟩

/-- Behind an entry that can be read, a scan goes on if that is in the range. -/
theorem meets_cons_of_some {p : UInt64 × Bytes} {e : Entry} (h : entryOf? p.2 = some e)
    (rest : List (UInt64 × Bytes)) :
    Meets inRange (p :: rest) ↔ inRange p.1 = true ∧ Meets inRange rest := by
  constructor
  · rintro ⟨before, q, after, hsplit, hnone, hbefore⟩
    cases before with
    | nil =>
        cases hsplit
        rw [h] at hnone
        cases hnone
    | cons r before =>
        cases hsplit
        obtain ⟨hp, hbefore⟩ := List.forall_mem_cons.1 hbefore
        exact ⟨hp, before, q, after, rfl, hnone, hbefore⟩
  · rintro ⟨hp, before, q, after, rfl, hnone, hbefore⟩
    exact ⟨p :: before, q, after, rfl, hnone, List.forall_mem_cons.2 ⟨hp, hbefore⟩⟩

/-- A scan of entries at their own indices fails if it meets bytes that are no entry; otherwise it
reads all up to the end of the range. -/
theorem readWhile_cases {l : List (UInt64 × Bytes)}
    (hl : ∀ p ∈ l, ∀ e, entryOf? p.2 = some e → e.logId.index = p.1) :
    (Meets inRange l → readWhile inRange l = .error (.unreadable .logs)) ∧
    (¬ Meets inRange l → ∃ es, readWhile inRange l = .ok es ∧
      (l.takeWhile fun p => inRange p.1).map (fun p => entryOf? p.2) = es.map some) := by
  induction l with
  | nil => exact ⟨fun h => absurd h not_meets_nil, fun _ => ⟨[], rfl, rfl⟩⟩
  | cons p rest ih =>
      obtain ⟨i, bytes⟩ := p
      obtain ⟨hp, hrest⟩ := List.forall_mem_cons.1 hl
      cases hread : entryOf? bytes with
      | none =>
          have hmeets : Meets inRange ((i, bytes) :: rest) :=
            meets_cons_of_none (p := (i, bytes)) hread rest
          exact ⟨fun _ => readWhile_cons_of_none hread inRange i rest, fun h => absurd hmeets h⟩
      | some e =>
          obtain ⟨hfails, hreads⟩ := ih hrest
          have hindex : e.logId.index = i := hp e hread
          rw [readWhile_cons_of_some hread, hindex,
            meets_cons_of_some (p := (i, bytes)) hread]
          by_cases hi : inRange i = true
          · rw [if_pos hi, List.takeWhile_cons, if_pos hi]
            refine ⟨fun h => by rw [hfails h.2]; rfl, fun h => ?_⟩
            obtain ⟨es, hes, hall⟩ := hreads fun hmeets => h ⟨hi, hmeets⟩
            refine ⟨e :: es, by rw [hes]; rfl, ?_⟩
            rw [List.map_cons, List.map_cons, hall, hread]
          · rw [if_neg hi, List.takeWhile_cons, if_neg hi]
            exact ⟨fun h => absurd h.1 hi, fun _ => ⟨[], rfl, rfl⟩⟩

end Scan

/-- A range whose scan stops at damage: at a damaged index such that all indices of the log in front
of it, from the first one of the range on, are in the range. -/
def Stopped (d : Disk) (low high : Bound) : Prop :=
  ∃ u, d.Damaged u ∧ low.start ≤ u ∧
    ∀ j ∈ d.log.keys, low.start ≤ j → j < u →
      (low.allowsFrom j && high.allowsTo j) = true

/-- What a log has from an index on, in order. -/
theorem pairwise_from (d : Disk) (first : UInt64) :
    (d.log.entries.filter fun p => first ≤ p.1).Pairwise fun p q => p.1 < q.1 :=
  (d.log.ordered.filter _).imp Std.compare_eq_lt.1

/-- A scan meets damage exactly if the range is stopped there. -/
theorem stopped_iff (d : Disk) (low high : Bound) :
    Stopped d low high ↔ Meets (fun j => low.allowsFrom j && high.allowsTo j)
      (d.log.entries.filter fun p => low.start ≤ p.1) := by
  have hpairwise := pairwise_from d low.start
  constructor
  · rintro ⟨u, ⟨bytes, hget, hnone⟩, hstart, hall⟩
    have hmem : (u, bytes) ∈ d.log.entries.filter fun p => low.start ≤ p.1 :=
      List.mem_filter.2 ⟨SortedMap.get?_eq_some_iff.1 hget, decide_eq_true hstart⟩
    obtain ⟨before, after, hsplit⟩ := List.append_of_mem hmem
    refine ⟨before, (u, bytes), after, hsplit, hnone, fun q hq => ?_⟩
    rw [hsplit] at hpairwise
    have hqmem : q ∈ d.log.entries.filter fun p => low.start ≤ p.1 := by
      rw [hsplit]
      exact List.mem_append_left _ hq
    obtain ⟨hentry, hfrom⟩ := List.mem_filter.1 hqmem
    exact hall q.1 (List.mem_map_of_mem hentry) (of_decide_eq_true hfrom)
      ((List.pairwise_append.1 hpairwise).2.2 q hq _ List.mem_cons_self)
  · rintro ⟨before, p, after, hsplit, hnone, hbefore⟩
    have hmem : p ∈ d.log.entries.filter fun p => low.start ≤ p.1 := by
      rw [hsplit]
      exact List.mem_append_right _ List.mem_cons_self
    obtain ⟨hentry, hfrom⟩ := List.mem_filter.1 hmem
    refine ⟨p.1, ⟨p.2, SortedMap.get?_eq_some_iff.2 hentry, hnone⟩, of_decide_eq_true hfrom,
      fun j hj hstart hlt => ?_⟩
    obtain ⟨q, hq, rfl⟩ := List.mem_map.1 hj
    have hqmem : q ∈ d.log.entries.filter fun p => low.start ≤ p.1 :=
      List.mem_filter.2 ⟨hq, decide_eq_true hstart⟩
    rw [hsplit] at hqmem hpairwise
    rcases List.mem_append.1 hqmem with hq | hq
    · exact hbefore q hq
    · -- what is not in front of the damage is not smaller
      rcases List.mem_cons.1 hq with rfl | hq
      · exact absurd hlt (UInt64.lt_irrefl _)
      · have hpairs := (List.pairwise_append.1 hpairwise).2.1
        exact absurd hlt (UInt64.lt_asymm ((List.pairwise_cons.1 hpairs).1 q hq))

/-- A range is read unless its scan stops at damage. -/
theorem entries_of_filed {s : Storage} (h : Filed s.disk) {low high : Bound}
    (hlow : low ≠ .excluded 18446744073709551615) :
    (Stopped s.disk low high → s.entries low high = .error (.unreadable .logs)) ∧
    (¬ Stopped s.disk low high → ∃ es, s.entries low high = .ok es ∧
      (s.disk.log.entries.filter fun p => low.allowsFrom p.1 && high.allowsTo p.1).map
        (fun p => entryOf? p.2) = es.map some) := by
  have hfiled : ∀ p ∈ s.disk.log.entries.filter (fun p => low.start ≤ p.1),
      ∀ e, entryOf? p.2 = some e → e.logId.index = p.1 := by
    intro p hp e he
    refine h p.1 e ?_
    rw [Disk.entryAt?, SortedMap.get?_eq_some_iff.2 (List.mem_filter.1 hp).1, Option.bind_some, he]
  have hordered : s.disk.log.entries.Pairwise fun p q => p.1 < q.1 :=
    s.disk.log.ordered.imp Std.compare_eq_lt.1
  rw [stopped_iff, ← scan_eq_filter hordered hlow]
  exact readWhile_cases hfiled

/-! ## the log state -/

/-- The entry at the end of a log is the one at its greatest index. -/
theorem greatest_of_last? {d : Disk} {u : UInt64} {bytes : Bytes}
    (h : d.log.last? = some (u, bytes)) :
    d.log.get? u = some bytes ∧ ∀ j ∈ d.log.keys, j ≤ u := by
  obtain ⟨front, hfront⟩ := List.getLast?_eq_some_iff.1 h
  have hordered := d.log.ordered
  rw [hfront] at hordered
  constructor
  · rw [SortedMap.get?_eq_some_iff, hfront]
    exact List.mem_append_right _ List.mem_cons_self
  · intro j hj
    rw [SortedMap.keys, hfront, List.map_append, List.mem_append] at hj
    rcases hj with hj | hj
    · obtain ⟨q, hq, rfl⟩ := List.mem_map.1 hj
      have hlt := (List.pairwise_append.1 hordered).2.2 q hq _ List.mem_cons_self
      exact UInt64.le_of_lt (Std.compare_eq_lt.1 hlt)
    · rw [List.map_singleton, List.mem_singleton] at hj
      exact hj ▸ UInt64.le_refl _

/-- A log is damaged at its greatest index if its last bytes are no entry. -/
theorem exists_damaged_greatest_iff (d : Disk) :
    (∃ u, d.Damaged u ∧ ∀ j ∈ d.log.keys, j ≤ u) ↔
      ∃ p, d.log.last? = some p ∧ entryOf? p.2 = none := by
  constructor
  · rintro ⟨u, ⟨bytes, hget, hnone⟩, hgreatest⟩
    have hmem := SortedMap.get?_eq_some_iff.1 hget
    cases hlast : d.log.last? with
    | none =>
        rw [List.getLast?_eq_none_iff.1 hlast] at hmem
        cases hmem
    | some p =>
        obtain ⟨hp, hle⟩ := greatest_of_last? hlast
        have hpkey : p.1 ∈ d.log.keys := SortedMap.mem_keys_iff.2 ⟨p.2, hp⟩
        have hu : u = p.1 :=
          UInt64.le_antisymm (hle u (List.mem_map_of_mem hmem)) (hgreatest p.1 hpkey)
        rw [hu, hp, Option.some.injEq] at hget
        exact ⟨p, rfl, by rw [hget, hnone]⟩
  · rintro ⟨p, hlast, hnone⟩
    obtain ⟨hp, hle⟩ := greatest_of_last? hlast
    exact ⟨p.1, ⟨p.2, hp, hnone⟩, hle⟩

/-- The state of a log fails if the position purged last cannot be read, or its last entry. -/
theorem logState_error_iff (s : Storage) :
    (∃ error, s.logState = .error error) ↔
      (∃ bytes, s.disk.value .lastPurged = some bytes ∧ Fixed.get? (α := LogId) bytes = none) ∨
        ∃ u, s.disk.Damaged u ∧ ∀ j ∈ s.disk.log.keys, j ≤ u := by
  rw [exists_damaged_greatest_iff]
  have hpurged : (∃ bytes, s.disk.value .lastPurged = some bytes ∧
        Fixed.get? (α := LogId) bytes = none) ↔
      ∃ error, readFixed (α := LogId) s.disk .lastPurged .logs = .error error := by
    rw [readFixed]
    cases s.disk.value .lastPurged with
    | none => simp
    | some bytes => cases hget : Fixed.get? (α := LogId) bytes <;> simp [hget]
  rw [hpurged, logState]
  cases readFixed (α := LogId) s.disk .lastPurged .logs with
  | error error => simp [bind, Except.bind]
  | ok lastPurged =>
      cases hlast : s.disk.log.last? with
      | none => simp [bind, Except.bind, pure, Except.pure]
      | some p =>
          cases hparse : parseBytes (α := Entry) p.2 <;>
            simp [bind, Except.bind, pure, Except.pure, entryOf?, hparse, Except.toOption, throw,
              throwThe, MonadExceptOf.throw]

/-! ## operations -/

namespace Operation

/-- The indices of the log that an operation overwrites or removes. -/
def Clears : Operation → UInt64 → Prop
  | .append entries, i => ∃ e ∈ entries, e.logId.index = i
  | .truncate from', i => from' ≤ i
  | .purge upTo, i => i ≤ upTo.index
  | .saveVote _, _ => False
  | .apply _, _ => False
  | .build, _ => False
  | .install _, _ => False

end Operation

theorem get?_putEntry (d : Disk) (k i : UInt64) (bytes : Bytes) :
    (d.write (.putEntry k bytes)).log.get? i
      = if i = k then some bytes else d.log.get? i := by
  simp only [Disk.write, SortedMap.get?_insert, Std.compare_eq_iff_eq]

theorem entryAt_putEntry (d : Disk) (e : Entry) (i : UInt64) :
    (d.write (.putEntry e.logId.index (writeBytes e))).entryAt? i
      = if i = e.logId.index then some e else d.entryAt? i := by
  rw [Disk.entryAt?, get?_putEntry]
  by_cases hi : i = e.logId.index
  · rw [if_pos hi, if_pos hi, Option.bind_some, entryOf?_writeBytes]
  · rw [if_neg hi, if_neg hi, Disk.entryAt?]

/-- An entry that is written takes the place of damage at its index. -/
theorem damaged_putEntry (d : Disk) (e : Entry) (i : UInt64) :
    (d.write (.putEntry e.logId.index (writeBytes e))).Damaged i ↔
      d.Damaged i ∧ e.logId.index ≠ i := by
  unfold Disk.Damaged
  rw [get?_putEntry]
  by_cases hi : i = e.logId.index
  · simp [hi, entryOf?_writeBytes]
  · simp [hi, Ne.symm hi]

theorem damaged_append (d : Disk) (entries : List Entry) (i : UInt64) :
    (d.writeAll (appendWrites entries)).Damaged i ↔
      d.Damaged i ∧ ¬ ∃ e ∈ entries, e.logId.index = i := by
  induction entries generalizing d with
  | nil => simp [appendWrites, Disk.writeAll]
  | cons e rest ih =>
      have hrest := ih (d.write (.putEntry e.logId.index (writeBytes e)))
      rw [damaged_putEntry, and_assoc] at hrest
      refine hrest.trans (and_congr_right fun _ => ?_)
      simp

theorem entryAt_append {d : Disk} {v : LogView} (h : d.entryAt? = v.entry)
    (entries : List Entry) :
    (d.writeAll (appendWrites entries)).entryAt? = (entries.foldl LogView.insert v).entry := by
  induction entries generalizing d v with
  | nil => exact h
  | cons e rest ih =>
      refine ih (v := v.insert e) (funext fun i => ?_)
      rw [entryAt_putEntry, h]
      rfl

/-- Removing indices removes the damage there, and leaves the rest. -/
theorem damaged_removed (remove : UInt64 → Bool) (d : Disk) (i : UInt64) :
    (d.writeAll ((d.log.keys.filter remove).map .removeEntry)).Damaged i ↔
      d.Damaged i ∧ ¬ remove i = true := by
  unfold Disk.Damaged
  rw [get?_writeAll_removed]
  by_cases hi : remove i = true <;> simp [hi]

theorem entryAt_removed (remove : UInt64 → Bool) (d : Disk) (i : UInt64) :
    (d.writeAll ((d.log.keys.filter remove).map .removeEntry)).entryAt? i
      = if remove i then none else d.entryAt? i := by
  rw [Disk.entryAt?, get?_writeAll_removed]
  by_cases hi : remove i = true
  · rw [if_pos hi, if_pos hi, Option.bind_none]
  · rw [if_neg hi, if_neg hi, Disk.entryAt?]

/-- **Behind an operation** a log is damaged where it was, but for the indices that were overwritten
or removed. -/
theorem damaged_run (s : Storage) (op : Operation) (i : UInt64) :
    (op.run s).disk.Damaged i ↔ s.disk.Damaged i ∧ ¬ op.Clears i := by
  by_cases hop : op.OnLog
  · cases op with
    | append entries => exact damaged_append s.disk entries i
    | truncate from' =>
        refine (damaged_removed (from' ≤ ·) s.disk i).trans (and_congr_right fun _ => ?_)
        rw [decide_eq_true_iff, Operation.Clears]
    | purge upTo =>
        refine (damaged_removed (· ≤ upTo.index) (s.disk.putValue .lastPurged (Fixed.put upTo))
          i).trans (and_congr_right fun _ => ?_)
        rw [decide_eq_true_iff, Operation.Clears]
    | saveVote v => exact hop.elim
    | apply entries => exact hop.elim
    | build => exact hop.elim
    | install snapshot => exact hop.elim
  · have hclears : ¬ op.Clears i := by
      cases op with
      | append entries => exact absurd trivial hop
      | truncate from' => exact absurd trivial hop
      | purge upTo => exact absurd trivial hop
      | saveVote v => exact id
      | apply entries => exact id
      | build => exact id
      | install snapshot => exact id
    rw [Disk.Damaged, Operation.log_run hop]
    exact ⟨fun h => ⟨h, hclears⟩, fun h => h.1⟩

/-- The entries that can be read are those of the log without damage. -/
theorem entryAt_run {s : Storage} {v : LogView} (h : s.disk.entryAt? = v.entry)
    (op : Operation) : (op.run s).disk.entryAt? = (v.after op).entry := by
  by_cases hop : op.OnLog
  · cases op with
    | append entries => exact entryAt_append h entries
    | truncate from' =>
        refine funext fun i => (entryAt_removed (from' ≤ ·) s.disk i).trans ?_
        rw [h]
        simp only [LogView.after, decide_eq_true_iff, ← UInt64.not_lt, ite_not]
    | purge upTo =>
        refine funext fun i => (entryAt_removed (· ≤ upTo.index)
          (s.disk.putValue .lastPurged (Fixed.put upTo)) i).trans ?_
        show (if _ then none else s.disk.entryAt? i) = _
        rw [h]
        simp only [LogView.after, decide_eq_true_iff, ← UInt64.not_lt, ite_not]
    | saveVote v => exact hop.elim
    | apply entries => exact hop.elim
    | build => exact hop.elim
    | install snapshot => exact hop.elim
  · rw [LogView.after_of_not_onLog hop, ← h]
    refine funext fun i => ?_
    rw [Disk.entryAt?, Operation.log_run hop, Disk.entryAt?]

/-! ## where entries stand -/

/-- Entries that are appended stand at their own indices. -/
theorem LogView.index_foldl_insert {v : LogView}
    (h : ∀ i e, v.entry i = some e → e.logId.index = i) (entries : List Entry) :
    ∀ i e, (entries.foldl LogView.insert v).entry i = some e → e.logId.index = i := by
  induction entries generalizing v with
  | nil => exact h
  | cons a rest ih =>
      refine ih fun i e he => ?_
      simp only [LogView.insert] at he
      by_cases hi : i = a.logId.index
      · rw [if_pos hi, Option.some.injEq] at he
        rw [← he, hi]
      · rw [if_neg hi] at he
        exact h i e he

theorem LogView.index_after {v : LogView} (h : ∀ i e, v.entry i = some e → e.logId.index = i)
    (op : Operation) : ∀ i e, (v.after op).entry i = some e → e.logId.index = i := by
  cases op with
  | append entries => exact LogView.index_foldl_insert h entries
  | truncate from' => exact fun i e he => h i e (Option.ite_none_right_eq_some.1 he).2
  | purge upTo => exact fun i e he => h i e (Option.ite_none_right_eq_some.1 he).2
  | saveVote v => exact h
  | apply entries => exact h
  | build => exact h
  | install snapshot => exact h

namespace Filed

/-- An operation files what it appends. -/
theorem run {s : Storage} (h : Filed s.disk) (op : Operation) : Filed (op.run s).disk := by
  intro i e he
  have hview : s.disk.entryAt? = (LogView.mk s.disk.entryAt? none).entry := rfl
  rw [entryAt_run hview op] at he
  exact LogView.index_after (v := LogView.mk s.disk.entryAt? none) h op i e he

/-- Bytes that are no entry may take the place of any entry. -/
theorem damage {d : Disk} (h : Filed d) (u : UInt64) {bytes : Bytes}
    (hbytes : entryOf? bytes = none) :
    Filed (d.write (.putEntry u bytes)) ∧
      ∀ i, (d.write (.putEntry u bytes)).Damaged i ↔ i = u ∨ d.Damaged i := by
  constructor
  · intro i e he
    rw [Disk.entryAt?, get?_putEntry] at he
    by_cases hi : i = u
    · rw [if_pos hi, Option.bind_some, hbytes] at he
      cases he
    · rw [if_neg hi] at he
      exact h i e he
  · intro i
    unfold Disk.Damaged
    rw [get?_putEntry]
    by_cases hi : i = u <;> simp [hi, hbytes]

end Filed

/-- **Whatever was done before**, the entries of a log stand at their own indices, and none is
damaged. -/
theorem Reachable.filed {s : Storage} (hs : Reachable s) :
    Filed s.disk ∧ ∀ i, ¬ s.disk.Damaged i := by
  have hlog := hs.sound.intact.log
  constructor
  · intro i e he
    obtain ⟨bytes, hget, hread⟩ := Option.bind_eq_some_iff.1 he
    obtain ⟨stored, hindex, rfl⟩ := hlog i bytes hget
    rw [entryOf?_writeBytes, Option.some.injEq] at hread
    exact hread ▸ hindex
  · rintro i ⟨bytes, hget, hnone⟩
    obtain ⟨stored, -, rfl⟩ := hlog i bytes hget
    rw [entryOf?_writeBytes] at hnone
    cases hnone

/-! ## another log -/

/-- A storage with another log in place of its own. -/
def withLog (s : Storage) (log : SortedMap UInt64 Bytes) : Storage :=
  { s with disk := { s.disk with log } }

theorem sameState_withLog (s : Storage) (log : SortedMap UInt64 Bytes) :
    SameState (s.withLog log) s := ⟨fun _ _ => rfl, rfl, rfl, rfl⟩

theorem SameLog.withLog {s t : Storage} (h : SameLog s t) (log : SortedMap UInt64 Bytes) :
    SameLog (s.withLog log) (t.withLog log) := ⟨rfl, h.value⟩

/-- The state side does with another log what it does with its own. -/
theorem StateCall.next_withLog (s : Storage) (log : SortedMap UInt64 Bytes) (c : StateCall) :
    c.next (s.withLog log) = (c.next s).withLog log := by
  have hlog := (c.sameLog_next (s.withLog log)).symm.trans ((c.sameLog_next s).withLog log)
  have hstate := ((sameState_withLog s log).next c).trans (sameState_withLog (c.next s) log).symm
  exact hlog.eq_of_sameState hstate

/-! ## damage is contained -/

/-- **Damage is contained.**  Take a storage whose entries stand at their own indices, as far as
they can be read, and any damage to the log besides.  Whatever was done to a storage and whatever of
its log was damaged since, it is one of these (`Reachable.filed`, `Filed.damage`, `Filed.run`).

A range that has a first index is read as a whole, each of its indices in order, unless its scan
stops at damage; then it fails.  The log state fails exactly if the position purged last cannot be
read, or what stands at the greatest index.  Every operation does all of its writes: what can be
read behind it is what an undamaged log would have there, and the damage has lost the indices that
were overwritten or removed, and no other.  Whatever else is asked, about the state, its snapshots
or the vote, is answered and done as with any other log. -/
theorem damage_contained {s : Storage} (h : Filed s.disk) :
    (∀ low high, low ≠ .excluded 18446744073709551615 →
      (Stopped s.disk low high → s.entries low high = .error (.unreadable .logs)) ∧
      (¬ Stopped s.disk low high → ∃ es, s.entries low high = .ok es ∧
        (s.disk.log.entries.filter fun p => low.allowsFrom p.1 && high.allowsTo p.1).map
          (fun p => entryOf? p.2) = es.map some)) ∧
    ((∃ error, s.logState = .error error) ↔
      (∃ bytes, s.disk.value .lastPurged = some bytes ∧ Fixed.get? (α := LogId) bytes = none) ∨
        ∃ u, s.disk.Damaged u ∧ ∀ j ∈ s.disk.log.keys, j ≤ u) ∧
    (∀ op : Operation, (op.run s).disk = s.disk.writeAll (op.writes s) ∧
      Filed (op.run s).disk ∧
      (op.run s).disk.entryAt? = ((LogView.mk s.disk.entryAt? none).after op).entry ∧
      ∀ i, (op.run s).disk.Damaged i ↔ s.disk.Damaged i ∧ ¬ op.Clears i) ∧
    ∀ log, (∀ c : StateCall, c.answer (s.withLog log) = c.answer s ∧
        c.next (s.withLog log) = (c.next s).withLog log) ∧
      (s.withLog log).readVote = s.readVote ∧
      ∀ v, (s.withLog log).saveVote v = (s.saveVote v).withLog log :=
  ⟨fun _ _ hlow => entries_of_filed h hlow, logState_error_iff s,
    fun op => ⟨Operation.run_disk s op, h.run op, entryAt_run rfl op, damaged_run s op⟩,
    fun log => ⟨fun c => ⟨(sameState_withLog s log).answer c, c.next_withLog s log⟩, rfl,
      fun _ => rfl⟩⟩

/-- A log of three entries, the second of which is no longer readable. -/
def wornNode : Storage :=
  let written := Operation.run (create .halt) (.append
    [⟨⟨⟨1, 1⟩, 1⟩, .blank⟩, ⟨⟨⟨1, 1⟩, 2⟩, .blank⟩, ⟨⟨⟨1, 1⟩, 3⟩, .blank⟩])
  { written with disk := written.disk.write (.putEntry 2 [0]) }

/-- The first entry alone cannot be read, since the scan looks at the one behind it; the third one
can.  Truncating the log from the second one on repairs it. -/
theorem damage_contained_wornNode :
    Filed wornNode.disk ∧ (∀ i, wornNode.disk.Damaged i ↔ i = 2) ∧
      wornNode.entries (.included 1) (.included 1) = .error (.unreadable .logs) ∧
      (∃ es, wornNode.entries (.excluded 2) .unbounded = .ok es) ∧
      (¬ ∃ error, wornNode.logState = .error error) ∧
      ∀ i, ¬ (Operation.run wornNode (.truncate 2)).disk.Damaged i := by
  have hwritten : Reachable (Operation.run (create .halt) (.append
      [⟨⟨⟨1, 1⟩, 1⟩, .blank⟩, ⟨⟨⟨1, 1⟩, 2⟩, .blank⟩, ⟨⟨⟨1, 1⟩, 3⟩, .blank⟩])) :=
    .run (.start .halt rfl) (.append _)
  have hbytes : entryOf? [0] = none := by decide +kernel
  obtain ⟨hfiled, hdamaged⟩ := hwritten.filed.1.damage 2 hbytes
  have hkeys : wornNode.disk.log.keys = [1, 2, 3] := rfl
  have honly (i : UInt64) : wornNode.disk.Damaged i ↔ i = 2 :=
    (hdamaged i).trans (or_iff_left (hwritten.filed.2 i))
  have hworn : Filed wornNode.disk := hfiled
  obtain ⟨hranges, hlogState, hoperations, -⟩ := damage_contained (s := wornNode) hworn
  refine ⟨hfiled, honly, ?_, ?_, ?_, ?_⟩
  · refine (hranges (.included 1) (.included 1) (by decide)).1 ⟨2, (honly 2).2 rfl, by decide, ?_⟩
    rw [hkeys]
    simp [Bound.allowsFrom, Bound.allowsTo]
  · obtain ⟨es, hes, -⟩ := (hranges (.excluded 2) .unbounded (by decide)).2 (by
      rintro ⟨u, hu, hstart, -⟩
      rw [(honly u).1 hu] at hstart
      exact absurd hstart (by decide))
    exact ⟨es, hes⟩
  · rw [hlogState]
    rintro (⟨bytes, hbytes, -⟩ | ⟨u, hu, hgreatest⟩)
    · cases hbytes
    · rw [hkeys, (honly u).1 hu] at hgreatest
      exact absurd (hgreatest 3 (by simp)) (by decide)
  · intro i hi
    obtain ⟨hworn, hkept⟩ := ((hoperations (.truncate 2)).2.2.2 i).1 hi
    rw [(honly i).1 hworn] at hkept
    exact hkept (UInt64.le_refl _)

end ControlPlane.Storage
