import Mathlib.Data.List.Basic

/-!
# ControlPlane.Proofs.Lookup

Entries that are looked up by name.  Directories and the tables of documents put an entry in place
of the one of its name, or else behind all others (`replaceEntry`).
-/

namespace ControlPlane

variable {α : Type}

theorem lookup_cons_eq (e : String × α) (l : List (String × α)) (n : String) :
    (e :: l).lookup n = if n = e.1 then some e.2 else l.lookup n := by
  rw [List.lookup_cons]
  split
  · next h => rw [if_pos (by simpa using h)]
  · next h => rw [if_neg (by simpa using h)]

/-- Puts an entry in place of the one of its name, or behind all others. -/
def replaceEntry (l : List (String × α)) (n : String) (a : α) : List (String × α) :=
  if (l.lookup n).isSome then l.map fun e => if e.1 == n then (n, a) else e else l ++ [(n, a)]

/-- Only the entry of the name is another. -/
theorem lookup_replaceEntry (l : List (String × α)) (n m : String) (a : α) :
    (replaceEntry l n a).lookup m = if m = n then some a else l.lookup m := by
  have hmap (l : List (String × α)) :
      (l.map fun e => if e.1 == n then (n, a) else e).lookup m
        = if m = n then (l.lookup n).map fun _ => a else l.lookup m := by
    induction l with
    | nil => simp
    | cons e l ih =>
        rw [List.map_cons, lookup_cons_eq, lookup_cons_eq, lookup_cons_eq, ih]
        by_cases hen : e.1 = n
        · subst hen
          by_cases hmn : m = e.1 <;> simp [hmn]
        · by_cases hmn : m = n
          · subst hmn
            simp [hen, Ne.symm hen]
          · simp [hen, hmn]
  rw [replaceEntry]
  split
  · next h =>
      obtain ⟨b, hb⟩ := Option.isSome_iff_exists.1 h
      rw [hmap, hb]
      rfl
  · next h =>
      have hnone : l.lookup n = none := Option.not_isSome_iff_eq_none.1 h
      rw [List.lookup_append, lookup_cons_eq]
      by_cases hmn : m = n
      · simp [hmn, hnone]
      · simp [hmn]

/-- A new entry goes behind all others. -/
theorem replaceEntry_of_lookup_eq_none {l : List (String × α)} {n : String}
    (h : l.lookup n = none) (a : α) : replaceEntry l n a = l ++ [(n, a)] := by
  rw [replaceEntry, h]
  rfl

/-- The last entry is replaced in its place. -/
theorem replaceEntry_last {l : List (String × α)} {n : String} (h : l.lookup n = none) (a b : α) :
    replaceEntry (l ++ [(n, a)]) n b = l ++ [(n, b)] := by
  have hlast : ((l ++ [(n, a)]).lookup n).isSome = true := by
    simp [List.lookup_append, h]
  have hothers : (l.map fun e => if e.1 == n then (n, b) else e) = l := by
    refine (List.map_congr_left fun e he => ?_).trans (List.map_id l)
    have hne : n ≠ e.1 := by simpa using List.lookup_eq_none_iff.1 h e he
    rw [if_neg (by simpa using hne.symm)]
    rfl
  rw [replaceEntry, if_pos hlast, List.map_append, hothers]
  simp

/-- Of the entries that are left, those whose names are kept are found. -/
theorem lookup_filter_names (l : List (String × α)) (keep : String → Bool) (n : String) :
    (l.filter fun e => keep e.1).lookup n = if keep n then l.lookup n else none := by
  induction l with
  | nil => simp
  | cons e l ih =>
      rw [List.filter_cons, lookup_cons_eq]
      by_cases hne : n = e.1
      · subst hne
        cases hkeep : keep e.1 with
        | true => simp [lookup_cons_eq]
        | false => simp [ih, hkeep]
      · rw [if_neg hne]
        split
        · rw [lookup_cons_eq, if_neg hne, ih]
        · exact ih

end ControlPlane
