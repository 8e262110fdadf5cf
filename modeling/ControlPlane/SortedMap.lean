/-!
# ControlPlane.SortedMap

Finite maps kept as their entries in strictly increasing order of keys.  Everything this library
writes out (tables, membership records, command payloads) lists its keys in order, so the order is
part of the type.  The view of a map is `get?`: `get?_insert`, `get?_erase` and `get?_filterKeys`
say what each operation does to it.
-/

namespace ControlPlane

/-- A finite map: its entries, in strictly increasing order of keys. -/
structure SortedMap (κ ν : Type) [Ord κ] where
  /-- The entries in order. -/
  entries : List (κ × ν)
  /-- Keys increase, so no key occurs twice. -/
  ordered : entries.Pairwise fun a b => compare a.1 b.1 = .lt

namespace SortedMap

variable {κ ν : Type} [Ord κ]

/-! ## Operations on entry lists -/

/-- Puts an entry at its place, in front of the first greater key; an equal key is replaced. -/
def insertEntry (k : κ) (v : ν) : List (κ × ν) → List (κ × ν)
  | [] => [(k, v)]
  | (k', v') :: rest =>
    match compare k k' with
    | .lt => (k, v) :: (k', v') :: rest
    | .eq => (k, v) :: rest
    | .gt => (k', v') :: insertEntry k v rest

/-- The value of the first entry with this key. -/
def lookup (k : κ) : List (κ × ν) → Option ν
  | [] => none
  | (k', v') :: rest => if compare k k' = .eq then some v' else lookup k rest

theorem mem_insertEntry {k : κ} {v : ν} {a : κ × ν} {l : List (κ × ν)}
    (h : a ∈ insertEntry k v l) : a = (k, v) ∨ a ∈ l := by
  induction l with
  | nil => exact .inl (by simpa [insertEntry] using h)
  | cons b rest ih =>
    obtain ⟨k', v'⟩ := b
    simp only [insertEntry] at h
    split at h <;> grind

theorem pairwise_insertEntry [Std.TransOrd κ] [Std.LawfulEqOrd κ] {k : κ} {v : ν}
    {l : List (κ × ν)} (h : l.Pairwise fun a b => compare a.1 b.1 = .lt) :
    (insertEntry k v l).Pairwise fun a b => compare a.1 b.1 = .lt := by
  induction l with
  | nil => simp [insertEntry]
  | cons b rest ih =>
    obtain ⟨k', v'⟩ := b
    obtain ⟨hb, hrest⟩ := List.pairwise_cons.1 h
    simp only [insertEntry]
    split
    · next hlt =>
      refine List.pairwise_cons.2 ⟨fun a ha => ?_, h⟩
      rcases List.mem_cons.1 ha with rfl | ha
      · exact hlt
      · exact Std.TransCmp.lt_trans hlt (hb a ha)
    · next heq =>
      have hk : k = k' := Std.LawfulEqCmp.eq_of_compare heq
      subst hk
      exact List.pairwise_cons.2 ⟨hb, hrest⟩
    · next hgt =>
      refine List.pairwise_cons.2 ⟨fun a ha => ?_, ih hrest⟩
      rcases mem_insertEntry ha with rfl | ha
      · exact Std.OrientedCmp.gt_iff_lt.1 hgt
      · exact hb a ha

/-! ## The map -/

/-- The map without entries. -/
def empty : SortedMap κ ν := ⟨[], .nil⟩

instance : EmptyCollection (SortedMap κ ν) := ⟨empty⟩

instance : Inhabited (SortedMap κ ν) := ⟨empty⟩

instance [DecidableEq κ] [DecidableEq ν] : DecidableEq (SortedMap κ ν) := fun a b =>
  match decEq a.entries b.entries with
  | .isTrue h => .isTrue (by cases a; cases b; cases h; rfl)
  | .isFalse h => .isFalse (fun e => h (by rw [e]))

/-- The value at a key. -/
def get? (m : SortedMap κ ν) (k : κ) : Option ν := lookup k m.entries

/-- Whether a key has a value. -/
def contains (m : SortedMap κ ν) (k : κ) : Bool := (m.get? k).isSome

/-- Sets the value at a key, replacing the one it had. -/
def insert [Std.TransOrd κ] [Std.LawfulEqOrd κ] (m : SortedMap κ ν) (k : κ) (v : ν) :
    SortedMap κ ν :=
  ⟨insertEntry k v m.entries, pairwise_insertEntry m.ordered⟩

/-- Removes a key. -/
def erase (m : SortedMap κ ν) (k : κ) : SortedMap κ ν :=
  ⟨m.entries.filter (fun e => compare k e.1 != .eq), m.ordered.filter _⟩

/-- The entries whose key passes a test. -/
def filterKeys (m : SortedMap κ ν) (p : κ → Bool) : SortedMap κ ν :=
  ⟨m.entries.filter (fun e => p e.1), m.ordered.filter _⟩

/-- Changes every value, keeping the keys. -/
def map {μ : Type} (f : ν → μ) (m : SortedMap κ ν) : SortedMap κ μ :=
  ⟨m.entries.map (fun e => (e.1, f e.2)), m.ordered.map _ (fun _ _ h => h)⟩

/-- The entries in order of keys. -/
def toList (m : SortedMap κ ν) : List (κ × ν) := m.entries

/-- The keys in order. -/
def keys (m : SortedMap κ ν) : List κ := m.entries.map (·.1)

/-- The values in order of keys. -/
def values (m : SortedMap κ ν) : List ν := m.entries.map (·.2)

/-- The number of entries. -/
def size (m : SortedMap κ ν) : Nat := m.entries.length

/-- Whether there is no entry. -/
def isEmpty (m : SortedMap κ ν) : Bool := m.entries.isEmpty

/-- The map of a list of entries; of two entries with one key the later counts. -/
def ofList [Std.TransOrd κ] [Std.LawfulEqOrd κ] (l : List (κ × ν)) : SortedMap κ ν :=
  l.foldl (fun m e => m.insert e.1 e.2) empty

/-- The entry with the greatest key. -/
def last? (m : SortedMap κ ν) : Option (κ × ν) := m.entries.getLast?

/-! ## Look-ups after each operation -/

theorem lookup_insertEntry [Std.TransOrd κ] [Std.LawfulEqOrd κ] (k j : κ) (v : ν)
    (l : List (κ × ν)) :
    lookup j (insertEntry k v l) = if compare j k = .eq then some v else lookup j l := by
  induction l with
  | nil => simp [insertEntry, lookup]
  | cons b rest ih =>
    obtain ⟨k', v'⟩ := b
    simp only [insertEntry]
    split
    · simp [lookup]
    · next heq =>
      have hk : k = k' := Std.LawfulEqCmp.eq_of_compare heq
      subst hk
      simp only [lookup]
      split <;> rfl
    · next hgt =>
      simp only [lookup, ih]
      by_cases h1 : compare j k' = .eq
      · have : j = k' := Std.LawfulEqCmp.eq_of_compare h1
        subst this
        have : compare j k ≠ .eq := by
          intro h
          have : j = k := Std.LawfulEqCmp.eq_of_compare h
          subst this
          simp at hgt
        simp [this]
      · simp [h1]

@[simp] theorem get?_empty (k : κ) : (empty : SortedMap κ ν).get? k = none := rfl

@[simp] theorem get?_insert [Std.TransOrd κ] [Std.LawfulEqOrd κ] (m : SortedMap κ ν) (k j : κ)
    (v : ν) : (m.insert k v).get? j = if compare j k = .eq then some v else m.get? j :=
  lookup_insertEntry k j v m.entries

theorem lookup_filter [Std.LawfulEqOrd κ] (p : κ → Bool) (j : κ) (l : List (κ × ν)) :
    lookup j (l.filter fun e => p e.1) = if p j then lookup j l else none := by
  induction l with
  | nil => simp [lookup]
  | cons b rest ih =>
    obtain ⟨k', v'⟩ := b
    simp only [List.filter_cons]
    by_cases h : compare j k' = .eq
    · have : j = k' := Std.LawfulEqCmp.eq_of_compare h
      subst this
      by_cases hp : p j <;> simp [lookup, hp, ih]
    · by_cases hp : p k' <;> simp [lookup, hp, h, ih]

@[simp] theorem get?_erase [Std.LawfulEqOrd κ] (m : SortedMap κ ν) (k j : κ) :
    (m.erase k).get? j = if compare k j != .eq then m.get? j else none :=
  lookup_filter (fun j => compare k j != .eq) j m.entries

@[simp] theorem get?_filterKeys [Std.LawfulEqOrd κ] (m : SortedMap κ ν) (p : κ → Bool) (j : κ) :
    (m.filterKeys p).get? j = if p j then m.get? j else none :=
  lookup_filter p j m.entries

end SortedMap

end ControlPlane
