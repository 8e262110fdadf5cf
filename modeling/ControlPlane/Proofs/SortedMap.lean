import ControlPlane.SortedMap
import Mathlib.Data.List.Perm.Subperm

/-!
# ControlPlane.Proofs.SortedMap

Sorted maps as lists of entries.  A map is its entries (`ext`), and so it is what its look-ups find
(`ext_get?`).  An entry behind all others is appended (`entries_insert_of_last`), so a map is built
back from its own entries (`ofList_entries`).
Changing one key leaves the other entries as they are: `perm_erase` and `perm_insert` split off the
entry of that key and say so for all folds over the entries in which the order does not count.
-/

namespace ControlPlane.SortedMap

variable {κ ν : Type} [Ord κ]

/-- A map is its entries. -/
theorem ext {m n : SortedMap κ ν} (h : m.entries = n.entries) : m = n := by
  obtain ⟨ms, hm⟩ := m
  obtain ⟨ns, hn⟩ := n
  cases h
  rfl

@[simp] theorem entries_empty : (empty : SortedMap κ ν).entries = [] := rfl

/-! ## entries and look-ups -/

section Lookup

variable [Std.LawfulEqOrd κ]

/-- A look-up finds exactly the entries. -/
theorem get?_eq_some_iff {m : SortedMap κ ν} {k : κ} {v : ν} :
    m.get? k = some v ↔ (k, v) ∈ m.entries := by
  obtain ⟨l, hl⟩ := m
  simp only [get?]
  induction l with
  | nil => simp [lookup]
  | cons e rest ih =>
      obtain ⟨k', v'⟩ := e
      obtain ⟨hhead, hrest⟩ := List.pairwise_cons.1 hl
      simp only [lookup, List.mem_cons, Prod.mk.injEq]
      by_cases heq : compare k k' = .eq
      · have hk : k = k' := Std.LawfulEqCmp.eq_of_compare heq
        subst hk
        have hnot : (k, v) ∉ rest := fun hmem => by
          have := hhead _ hmem
          simp at this
        simp [hnot, eq_comm]
      · have hk : k ≠ k' := fun h => heq (h ▸ Std.ReflCmp.compare_self)
        simp [heq, hk, ih hrest]

/-- The keys are those that a look-up finds. -/
theorem mem_keys_iff {m : SortedMap κ ν} {k : κ} : k ∈ m.keys ↔ ∃ v, m.get? k = some v := by
  simp only [keys, List.mem_map, get?_eq_some_iff]
  constructor
  · rintro ⟨e, he, rfl⟩
    exact ⟨e.2, he⟩
  · rintro ⟨v, hv⟩
    exact ⟨(k, v), hv, rfl⟩

theorem not_mem_keys_iff {m : SortedMap κ ν} {k : κ} : k ∉ m.keys ↔ m.get? k = none := by
  rw [mem_keys_iff, not_exists, Option.eq_none_iff_forall_ne_some]

/-- The entries behind a removal: those of the other keys. -/
theorem mem_erase_iff {m : SortedMap κ ν} {k j : κ} {w : ν} :
    (j, w) ∈ (m.erase k).entries ↔ j ≠ k ∧ (j, w) ∈ m.entries := by
  simp only [erase, List.mem_filter, bne_iff_ne, ne_eq, Std.compare_eq_iff_eq]
  constructor
  · intro h
    obtain ⟨hmem, hne⟩ := h
    exact ⟨fun h => hne h.symm, hmem⟩
  · intro h
    obtain ⟨hne, hmem⟩ := h
    exact ⟨hmem, fun h => hne h.symm⟩

/-- Removing a key that is not there changes nothing. -/
theorem erase_of_get?_eq_none {m : SortedMap κ ν} {k : κ} (h : m.get? k = none) :
    m.erase k = m := by
  apply ext
  refine List.filter_eq_self.2 fun e he => ?_
  have hne : k ≠ e.1 := fun hk => by
    have hsome : m.get? k = some e.2 := get?_eq_some_iff.2 (hk ▸ he)
    simp [h] at hsome
  simp [hne]

/-- No entry occurs twice. -/
theorem nodup_entries (m : SortedMap κ ν) : m.entries.Nodup :=
  m.ordered.imp fun {a b} h hab => by
    subst hab
    simp at h

/-- A map is the entry of one of its keys and what is left without that key. -/
theorem perm_erase {m : SortedMap κ ν} {k : κ} {v : ν} (h : m.get? k = some v) :
    m.entries.Perm ((k, v) :: (m.erase k).entries) := by
  have hnot : (k, v) ∉ (m.erase k).entries := fun hmem => (mem_erase_iff.1 hmem).1 rfl
  refine (List.perm_ext_iff_of_nodup (nodup_entries m)
    (List.nodup_cons.2 ⟨hnot, nodup_entries _⟩)).2 fun ⟨j, w⟩ => ?_
  rw [List.mem_cons, mem_erase_iff, Prod.mk.injEq]
  have hone : (k, w) ∈ m.entries ↔ w = v := by
    rw [← get?_eq_some_iff, h, Option.some.injEq, eq_comm]
  by_cases hj : j = k
  · subst hj
    simp [hone]
  · simp [hj]

/-- There is at most one entry of a key. -/
theorem filter_entries_eq [DecidableEq κ] (m : SortedMap κ ν) (k : κ) :
    m.entries.filter (fun e => k = e.1) = ((m.get? k).map (k, ·)).toList := by
  have hother : (m.erase k).entries.filter (fun e => k = e.1) = [] :=
    List.filter_eq_nil_iff.2 fun e he hk => (mem_erase_iff.1 he).1 (of_decide_eq_true hk).symm
  cases hget : m.get? k with
  | none => rw [← erase_of_get?_eq_none hget, hother]; rfl
  | some v =>
      have hperm := (perm_erase hget).filter fun e => k = e.1
      rw [List.filter_cons, hother] at hperm
      simpa using hperm

end Lookup

section Change

variable [Std.TransOrd κ] [Std.LawfulEqOrd κ]

/-- A map is what its look-ups find. -/
theorem ext_get? {m n : SortedMap κ ν} (h : ∀ k, m.get? k = n.get? k) : m = n := by
  have hperm : m.entries.Perm n.entries :=
    (List.perm_ext_iff_of_nodup (nodup_entries m) (nodup_entries n)).2 fun ⟨k, v⟩ => by
      rw [← get?_eq_some_iff, ← get?_eq_some_iff, h]
  refine ext (hperm.eq_of_pairwise (fun a b _ _ hab hba => ?_) m.ordered n.ordered)
  exact absurd hba (Std.OrientedCmp.not_lt_of_lt hab)

/-- The entries behind an insertion: the new one, and those of the other keys. -/
theorem mem_insert_iff {m : SortedMap κ ν} {k j : κ} {v w : ν} :
    (j, w) ∈ (m.insert k v).entries ↔ (j = k ∧ w = v) ∨ (j ≠ k ∧ (j, w) ∈ m.entries) := by
  rw [← get?_eq_some_iff, get?_insert, ← get?_eq_some_iff (m := m)]
  by_cases h : j = k
  · subst h
    simp [eq_comm]
  · simp [h]

/-- Behind an insertion there are the new entry and what the map is without its key. -/
theorem perm_insert (m : SortedMap κ ν) (k : κ) (v : ν) :
    (m.insert k v).entries.Perm ((k, v) :: (m.erase k).entries) := by
  have hnot : (k, v) ∉ (m.erase k).entries := fun hmem => (mem_erase_iff.1 hmem).1 rfl
  refine (List.perm_ext_iff_of_nodup (nodup_entries _)
    (List.nodup_cons.2 ⟨hnot, nodup_entries _⟩)).2 fun ⟨j, w⟩ => ?_
  rw [List.mem_cons, mem_erase_iff, mem_insert_iff, Prod.mk.injEq]

/-! ## inserting behind greater keys -/

omit [Std.TransOrd κ] [Std.LawfulEqOrd κ] in
/-- An entry whose key is greater than those in front passes over them. -/
theorem insertEntry_append {k : κ} {v : ν} {l : List (κ × ν)}
    (h : ∀ e ∈ l, compare k e.1 = .gt) (rest : List (κ × ν)) :
    insertEntry k v (l ++ rest) = l ++ insertEntry k v rest := by
  induction l with
  | nil => rfl
  | cons e l ih =>
      obtain ⟨k', v'⟩ := e
      have hk : compare k k' = .gt := h (k', v') List.mem_cons_self
      have hl := ih fun e he => h e (List.mem_cons_of_mem _ he)
      simp only [List.cons_append, insertEntry, hk, hl]

omit [Std.TransOrd κ] [Std.LawfulEqOrd κ] in
/-- An entry whose key is greater than every key of a list goes to its end. -/
theorem insertEntry_of_gt {k : κ} {v : ν} {l : List (κ × ν)}
    (h : ∀ e ∈ l, compare k e.1 = .gt) : insertEntry k v l = l ++ [(k, v)] := by
  simpa [insertEntry] using insertEntry_append h []

omit [Std.LawfulEqOrd κ] in
/-- The key of an entry is greater than those in front of it. -/
theorem gt_of_entries_eq {m : SortedMap κ ν} {before after : List (κ × ν)} {k : κ} {v : ν}
    (h : m.entries = before ++ (k, v) :: after) : ∀ e ∈ before, compare k e.1 = .gt := by
  intro e he
  have hordered := m.ordered
  rw [h] at hordered
  exact Std.OrientedCmp.gt_iff_lt.2
    ((List.pairwise_append.1 hordered).2.2 e he _ List.mem_cons_self)

/-- The value of a key is replaced where its entry stands. -/
theorem entries_insert_of_entries {m : SortedMap κ ν} {before after : List (κ × ν)} {k : κ} {w : ν}
    (h : m.entries = before ++ (k, w) :: after) (v : ν) :
    (m.insert k v).entries = before ++ (k, v) :: after := by
  show insertEntry k v m.entries = _
  rw [h, insertEntry_append (gt_of_entries_eq h)]
  simp [insertEntry]

/-- Setting a key to the value that it has changes nothing. -/
theorem insert_of_get?_eq_some {m : SortedMap κ ν} {k : κ} {v : ν} (h : m.get? k = some v) :
    m.insert k v = m := by
  obtain ⟨before, after, hsplit⟩ := List.append_of_mem (get?_eq_some_iff.1 h)
  apply ext
  rw [entries_insert_of_entries hsplit, hsplit]

omit [Std.LawfulEqOrd κ] in
/-- A key that is greater than the last key is greater than all of them. -/
theorem gt_of_last {m : SortedMap κ ν} {k : κ}
    (h : ∀ e, m.last? = some e → compare k e.1 = .gt) : ∀ e ∈ m.entries, compare k e.1 = .gt := by
  intro e he
  have hne : m.entries ≠ [] := List.ne_nil_of_mem he
  have hlast : compare k (m.entries.getLast hne).1 = .gt :=
    h _ (by rw [last?, List.getLast?_eq_some_getLast hne])
  have hsplit := List.dropLast_concat_getLast hne
  have hordered := m.ordered
  rw [← hsplit] at he hordered
  rcases List.mem_append.1 he with hfront | hend
  · have hlt := (List.pairwise_append.1 hordered).2.2 e hfront _ (List.mem_singleton.2 rfl)
    exact Std.OrientedCmp.gt_iff_lt.2
      (Std.TransCmp.lt_trans hlt (Std.OrientedCmp.gt_iff_lt.1 hlast))
  · rw [List.mem_singleton.1 hend]
    exact hlast

/-- Inserting a key that is greater than the last one appends its entry. -/
theorem entries_insert_of_last {m : SortedMap κ ν} {k : κ} (v : ν)
    (h : ∀ e, m.last? = some e → compare k e.1 = .gt) :
    (m.insert k v).entries = m.entries ++ [(k, v)] :=
  insertEntry_of_gt (gt_of_last h)

/-! ## building a map in order -/

/-- Inserting further entries in order appends them. -/
theorem entries_foldl_insert (l : List (κ × ν)) (m : SortedMap κ ν)
    (h : (m.entries ++ l).Pairwise fun a b => compare a.1 b.1 = .lt) :
    (l.foldl (fun m e => m.insert e.1 e.2) m).entries = m.entries ++ l := by
  induction l generalizing m with
  | nil => simp
  | cons e rest ih =>
      have hgt : ∀ a ∈ m.entries, compare e.1 a.1 = .gt := fun a ha =>
        Std.OrientedCmp.gt_iff_lt.2 ((List.pairwise_append.1 h).2.2 a ha e List.mem_cons_self)
      have hins : (m.insert e.1 e.2).entries = m.entries ++ [e] := insertEntry_of_gt hgt
      rw [List.foldl_cons, ih _ (by simpa [hins] using h), hins]
      simp

/-- A map is built back from its entries. -/
@[simp] theorem ofList_entries (m : SortedMap κ ν) : ofList m.entries = m := by
  apply ext
  rw [ofList, entries_foldl_insert _ _ (by simpa using m.ordered)]
  rfl

/-! ## what a map is built from -/

/-- A map has no entries but those that it is built from. -/
theorem mem_of_mem_ofList {l : List (κ × ν)} {e : κ × ν} (h : e ∈ (ofList l).entries) : e ∈ l := by
  have hfoldl (l : List (κ × ν)) (m : SortedMap κ ν)
      (h : e ∈ (l.foldl (fun m e => m.insert e.1 e.2) m).entries) : e ∈ m.entries ∨ e ∈ l := by
    induction l generalizing m with
    | nil => exact .inl h
    | cons a rest ih =>
        rcases ih _ h with hmem | hmem
        · rcases mem_insertEntry hmem with rfl | hmem
          · exact .inr List.mem_cons_self
          · exact .inl hmem
        · exact .inr (List.mem_cons_of_mem a hmem)
  exact (hfoldl l empty h).resolve_left List.not_mem_nil

/-- A map has at most as many entries as it is built from. -/
theorem length_ofList_le (l : List (κ × ν)) : (ofList l).entries.length ≤ l.length :=
  ((nodup_entries _).subperm fun _ h => mem_of_mem_ofList h).length_le

end Change

end ControlPlane.SortedMap
