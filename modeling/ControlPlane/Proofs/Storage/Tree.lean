import ControlPlane.Proofs.SortedMap
import ControlPlane.Proofs.Storage.Operation

/-!
# ControlPlane.Proofs.Storage.Tree

The log as the tree of bytes that it is stored in.  An entry is filed under the bytes of its index,
and the keys are in the order of their bytes, which is that of the indices (`compare_logKey`).  So
the map by index stands for a tree (`treeOf`): every operation does to the tree what it does to the
map, key by key (`treeOf_run`), a range is a scan of the tree from the key of its first index
(`entries_eq_scan`), and the log ends with the last key (`logState_eq_lastOf`).
-/

namespace ControlPlane

/-! ## maps under other keys -/

namespace SortedMap

variable {κ κ' ν : Type} [Ord κ] [Ord κ']

/-- The entries of a map under other keys, which have the same order. -/
def reindex (f : κ → κ') (hf : ∀ a b, compare (f a) (f b) = compare a b) (m : SortedMap κ ν) :
    SortedMap κ' ν where
  entries := m.entries.map fun e => (f e.1, e.2)
  ordered := List.pairwise_map.2 (m.ordered.imp fun h => (hf _ _).trans h)

variable {f : κ → κ'} {hf : ∀ a b, compare (f a) (f b) = compare a b}

theorem keys_reindex (m : SortedMap κ ν) : (m.reindex f hf).keys = m.keys.map f := by
  rw [keys, reindex, keys, List.map_map, List.map_map]
  rfl

theorem last?_reindex (m : SortedMap κ ν) :
    (m.reindex f hf).last? = m.last?.map fun e => (f e.1, e.2) := List.getLast?_map

theorem reindex_insert [Std.TransOrd κ] [Std.LawfulEqOrd κ] [Std.TransOrd κ'] [Std.LawfulEqOrd κ']
    (m : SortedMap κ ν) (k : κ) (v : ν) :
    (m.insert k v).reindex f hf = (m.reindex f hf).insert (f k) v := by
  refine ext ?_
  show (insertEntry k v m.entries).map (fun e => (f e.1, e.2))
    = insertEntry (f k) v (m.entries.map fun e => (f e.1, e.2))
  induction m.entries with
  | nil => rfl
  | cons e rest ih =>
      obtain ⟨k', v'⟩ := e
      simp only [List.map_cons, insertEntry, hf]
      cases compare k k' with
      | lt => rfl
      | eq => rfl
      | gt => simp only [List.map_cons, ih]

theorem reindex_erase (m : SortedMap κ ν) (k : κ) :
    (m.erase k).reindex f hf = (m.reindex f hf).erase (f k) := by
  refine ext ?_
  show (m.entries.filter _).map _ = (m.entries.map fun e => (f e.1, e.2)).filter _
  rw [List.filter_map]
  simp only [Function.comp_def, hf]

end SortedMap

namespace Storage

open Consensus
open Json (parseBytes writeBytes)

/-! ## keys -/

/-- The bytes under which the entry of an index is filed. -/
def logKey (index : UInt64) : Bytes := Wire.putInt64 index.toInt64

/-- Keys are in the order of their indices, so a scan over the keys is one over the indices. -/
theorem logKey_lt_iff (i j : UInt64) : logKey i < logKey j ↔ i < j := by
  have hlength : (logKey i).length = (logKey j).length := rfl
  rw [← Wire.bigEndian_lt_iff hlength, logKey, logKey, Wire.bigEndian_putInt64,
    Wire.bigEndian_putInt64, UInt64.toUInt64_toInt64, UInt64.toUInt64_toInt64,
    UInt64.lt_iff_toNat_lt]

theorem logKey_le_iff (i j : UInt64) : logKey i ≤ logKey j ↔ i ≤ j := by
  rw [← List.not_lt, logKey_lt_iff, UInt64.not_lt]

/-- Bytes are compared from the first on. -/
theorem compare_bytes_eq_lt_iff (a b : Bytes) : compare a b = .lt ↔ a < b := by
  induction a generalizing b with
  | nil => cases b <;> simp [List.compare_nil_cons]
  | cons x a ih =>
      cases b with
      | nil => simp
      | cons y b =>
          rw [List.compare_cons_cons, List.cons_lt_cons_iff, Ordering.then_eq_lt, ih,
            Std.compare_eq_lt, Std.compare_eq_iff_eq]

theorem compare_logKey (i j : UInt64) : compare (logKey i) (logKey j) = compare i j := by
  have hlt (i j : UInt64) : compare (logKey i) (logKey j) = .lt ↔ compare i j = .lt := by
    rw [compare_bytes_eq_lt_iff, logKey_lt_iff, Std.compare_eq_lt]
  have hgt : compare (logKey i) (logKey j) = .gt ↔ compare i j = .gt := by
    rw [Std.OrientedCmp.gt_iff_lt, hlt, Std.OrientedCmp.gt_iff_lt]
  cases h : compare i j with
  | lt => exact (hlt i j).2 h
  | gt => exact hgt.2 h
  | eq =>
      rw [Std.compare_eq_iff_eq] at h ⊢
      rw [h]

/-! ## the tree -/

/-- A tree: values that are bytes, under keys that are bytes and in their order. -/
abbrev Tree := SortedMap Bytes Bytes

/-- The tree that a log stands for. -/
def treeOf (log : SortedMap UInt64 Bytes) : Tree := log.reindex logKey compare_logKey

namespace Tree

/-- Files entries under their keys. -/
def append (t : Tree) (entries : List Entry) : Tree :=
  entries.foldl (fun t e => t.insert (logKey e.logId.index) (writeBytes e)) t

/-- Removes the keys of a range, one after the other. -/
def removeKeys (t : Tree) (inRange : Bytes → Bool) : Tree :=
  (t.keys.filter inRange).foldl SortedMap.erase t

/-- The tree behind an operation. -/
def after (t : Tree) : Operation → Tree
  | .append entries => t.append entries
  | .truncate from' => t.removeKeys (logKey from' ≤ ·)
  | .purge upTo => t.removeKeys (· ≤ logKey upTo.index)
  | .saveVote _ => t
  | .apply _ => t
  | .build => t
  | .install _ => t

/-- Reads the values from the key of the first index on, up to the first entry that is outside the
range. -/
def scan (t : Tree) (low high : Bound) : Except Error (List Entry) :=
  readWhile (fun i => low.allowsFrom i && high.allowsTo i)
    (t.entries.filter fun e => logKey low.start ≤ e.1)

/-- Reads the value under the last key. -/
def lastOf (t : Tree) : Except Error (Option Entry) :=
  match t.last? with
  | none => .ok none
  | some (_, bytes) =>
    match parseBytes (α := Entry) bytes with
    | .ok e => .ok (some e)
    | .error _ => .error (.unreadable .logs)

end Tree

/-! ## operations -/

theorem treeOf_append (entries : List Entry) (d : Disk) :
    treeOf (d.writeAll (appendWrites entries)).log = (treeOf d.log).append entries := by
  induction entries generalizing d with
  | nil => rfl
  | cons e rest ih =>
      show treeOf ((d.write (.putEntry e.logId.index (writeBytes e))).writeAll
        (appendWrites rest)).log = _
      rw [ih]
      exact congrArg (Tree.append · rest) (SortedMap.reindex_insert ..)

theorem treeOf_removeEntries (indices : List UInt64) (d : Disk) :
    treeOf (d.writeAll (indices.map .removeEntry)).log
      = (indices.map logKey).foldl SortedMap.erase (treeOf d.log) := by
  induction indices generalizing d with
  | nil => rfl
  | cons i rest ih =>
      show treeOf ((d.write (.removeEntry i)).writeAll (rest.map .removeEntry)).log = _
      rw [ih, List.map_cons, List.foldl_cons]
      exact congrArg (List.foldl SortedMap.erase · (rest.map logKey)) (SortedMap.reindex_erase ..)

/-- The keys of a range are those of the indices in it. -/
theorem treeOf_removed {remove : UInt64 → Bool} {inRange : Bytes → Bool}
    (h : ∀ i, inRange (logKey i) = remove i) (d : Disk) :
    treeOf (d.writeAll ((d.log.keys.filter remove).map .removeEntry)).log
      = (treeOf d.log).removeKeys inRange := by
  have hkeys : (treeOf d.log).keys.filter inRange = (d.log.keys.filter remove).map logKey := by
    rw [treeOf, SortedMap.keys_reindex, List.filter_map]
    simp only [Function.comp_def, h]
  rw [treeOf_removeEntries, Tree.removeKeys, hkeys]

/-- **Every operation** does to the tree what it does to the log. -/
theorem treeOf_run (s : Storage) (op : Operation) :
    treeOf (op.run s).disk.log = (treeOf s.disk.log).after op := by
  cases op with
  | append entries => exact treeOf_append entries s.disk
  | truncate from' =>
      exact treeOf_removed (fun i => decide_eq_decide.2 (logKey_le_iff from' i)) s.disk
  | purge upTo =>
      exact treeOf_removed (fun i => decide_eq_decide.2 (logKey_le_iff i upTo.index))
        (s.disk.write (.putValue .lastPurged (Fixed.put upTo)))
  | saveVote v => rfl
  | apply entries => exact congrArg treeOf (Operation.log_run id s)
  | build => exact congrArg treeOf (Operation.log_run id s)
  | install snapshot => exact congrArg treeOf (Operation.log_run id s)

/-! ## reading -/

theorem readWhile_map {κ κ' : Type} (f : κ → κ') (inRange : UInt64 → Bool)
    (l : List (κ × Bytes)) :
    readWhile inRange (l.map fun e => (f e.1, e.2)) = readWhile inRange l := by
  induction l with
  | nil => rfl
  | cons e rest ih => simp only [List.map_cons, readWhile, ih]

/-- **A range is a scan of the tree.** -/
theorem entries_eq_scan (s : Storage) (low high : Bound) :
    s.entries low high = (treeOf s.disk.log).scan low high := by
  have hfilter : (treeOf s.disk.log).entries.filter (fun e => logKey low.start ≤ e.1)
      = (s.disk.log.entries.filter fun e => low.start ≤ e.1).map fun e => (logKey e.1, e.2) := by
    rw [treeOf, SortedMap.reindex, List.filter_map]
    simp only [Function.comp_def, logKey_le_iff]
  rw [Tree.scan, hfilter, readWhile_map, entries]

/-- **The log ends with the last key of the tree.** -/
theorem logState_eq_lastOf (s : Storage) : s.logState = do
    let lastPurged ← readFixed (α := LogId) s.disk .lastPurged .logs
    let last ← (treeOf s.disk.log).lastOf
    return ⟨lastPurged, (last.map (·.logId)).or lastPurged⟩ := by
  rw [logState, Tree.lastOf, treeOf, SortedMap.last?_reindex]
  cases readFixed (α := LogId) s.disk .lastPurged .logs with
  | error e => rfl
  | ok lastPurged =>
      cases s.disk.log.last? with
      | none => rfl
      | some e =>
          obtain ⟨index, bytes⟩ := e
          simp only [Option.map_some]
          cases parseBytes (α := Entry) bytes <;> rfl

end Storage

end ControlPlane
