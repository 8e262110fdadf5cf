import ControlPlane.Proofs.Lookup
import ControlPlane.Proofs.Toml.Value

/-!
# ControlPlane.Proofs.Toml.Document

Documents line by line (`Amounts`), and the table that lines amount to.  Lines that set keys add
entries to the table that is open, at the end, provided that their keys are new there; this holds of
the document itself, of a table with a header, and of the last of several tables under one header
(`Grows`).
-/

namespace ControlPlane.Toml

namespace Reader

/-! ## keys -/

theorem skipBlank_space {c : Char} (h : isBlank c = false) (cs : List Char) :
    skipBlank (' ' :: c :: cs) = some ((), c :: cs) :=
  skipBlank_append (l := [' ']) (List.all_eq_true.1 (by decide)) h cs

/-- Whether a name needs no quotes as a key. -/
def isBareName (n : List Char) : Bool := !n.isEmpty && n.all isBare

theorem isBareName_iff {n : List Char} :
    isBareName n = true ↔ n ≠ [] ∧ ∀ c ∈ n, isBare c = true := by
  simp [isBareName]

theorem ne_of_isBare {c d : Char} (hc : isBare c = true) (hd : isBare d = false) : c ≠ d := by
  rintro rfl
  rw [hd] at hc
  cases hc

theorem isBlank_of_isBare {c : Char} (hc : isBare c = true) : isBlank c = false := by
  simp [isBlank, ne_of_isBare hc (d := ' ') (by decide), ne_of_isBare hc (d := '\t') (by decide)]

section Name

variable {n : List Char} (hn : isBareName n = true) {c : Char} (hc : isBare c = false)
  {cs : List Char}
include hn

theorem exists_cons_of_isBareName : ∃ d ds, n = d :: ds ∧ isBare d = true := by
  obtain ⟨hne, hall⟩ := isBareName_iff.1 hn
  obtain ⟨d, ds, rfl⟩ := List.exists_cons_of_ne_nil hne
  exact ⟨d, ds, rfl, hall d List.mem_cons_self⟩

include hc

/-- A name is taken up to the first character that it may not hold, together with the blanks behind
it. -/
theorem keyPart_bare {rest : List Char} (hblank : skipBlank (c :: cs) = some ((), rest)) :
    keyPart (n ++ c :: cs) = some (String.ofList n, rest) := by
  obtain ⟨d, ds, hname, hd⟩ := exists_cons_of_isBareName hn
  have hfront : skipBlank (n ++ c :: cs) = some ((), n ++ c :: cs) := by
    rw [hname, List.cons_append]
    exact skipBlank_of_not_isBlank (isBlank_of_isBare hd) _
  have hbasic : basic (n ++ c :: cs) = none := by
    rw [hname]
    exact basic_of_ne (ne_of_isBare hd (by decide)) _
  have hliteral : literal (n ++ c :: cs) = none := by
    rw [hname]
    exact literal_of_ne (ne_of_isBare hd (by decide)) _
  obtain ⟨hne, hall⟩ := isBareName_iff.1 hn
  have hname' : some' isBare (n ++ c :: cs) = some (n, c :: cs) := by
    rw [some', bind_of_some (while'_append hall hc cs), if_neg (by simpa using hne)]
    rfl
  have hbare : (do return String.ofList (← some' isBare) : Reader String) (n ++ c :: cs)
      = some (String.ofList n, c :: cs) := by
    rw [bind_of_some hname']
    rfl
  have hpart : (basic <|> literal <|> (do return String.ofList (← some' isBare)) : Reader String)
      (n ++ c :: cs) = some (String.ofList n, c :: cs) := by
    rw [orElse_of_none hbasic, orElse_of_none hliteral, hbare]
  rw [keyPart, bind_of_some hfront, bind_of_some hpart, bind_of_some hblank]
  rfl

/-- A name alone is a key without a path. -/
theorem key_bare {e : Char} {rest : List Char} (hblank : skipBlank (c :: cs) = some ((), e :: rest))
    (he : e ≠ '.') : key (n ++ c :: cs) = some (([], String.ofList n), e :: rest) := by
  have hmore : moreParts (e :: rest).length (e :: rest) = some ([], e :: rest) := by
    rw [List.length_cons, moreParts, bind_of_some (peek?_cons _ _), if_neg (by simpa using he)]
    rfl
  rw [key, bind_of_some (keyPart_bare hn hc hblank), bind_of_some (get_eq _), bind_of_some hmore]
  rfl

end Name

/-! ## lines -/

section Lines

variable {n : List Char} (hn : isBareName n = true) (rest : List Char)
include hn

/-- A line that sets a key to a value. -/
theorem line_setting {t : List Char} {v : Value} (hv : Denotes t v) :
    line (n ++ ' ' :: '=' :: ' ' :: (t ++ '\n' :: rest))
      = some (.set [] (String.ofList n) v, '\n' :: rest) := by
  obtain ⟨⟨c, cs, hfront, hc⟩, hread⟩ := hv
  obtain ⟨d, ds, hname, hd⟩ := exists_cons_of_isBareName hn
  have hbracket : d ≠ '[' := ne_of_isBare hd (by decide)
  have hblank (cs : List Char) : skipBlank (' ' :: '=' :: cs) = some ((), '=' :: cs) := rfl
  have hword (cs : List Char) : word "=" ('=' :: cs) = some ((), cs) := rfl
  have hvalue : skipBlank (' ' :: (t ++ '\n' :: rest)) = some ((), t ++ '\n' :: rest) := by
    rw [hfront, List.cons_append]
    exact skipBlank_space hc _
  have hsetting : setting (value deepest) (n ++ ' ' :: '=' :: ' ' :: (t ++ '\n' :: rest))
      = some (([], String.ofList n, v), '\n' :: rest) := by
    rw [setting, bind_of_some (key_bare hn (by decide) (hblank _) (by decide))]
    show (word "=" >>= _) _ = _
    rw [bind_of_some (hword _), bind_of_some hvalue, bind_of_some (hread rest)]
    rfl
  have hpeek : peek? (n ++ ' ' :: '=' :: ' ' :: (t ++ '\n' :: rest))
      = some (some d, n ++ ' ' :: '=' :: ' ' :: (t ++ '\n' :: rest)) := by
    rw [hname]
    rfl
  rw [line, bind_of_some hpeek, if_neg (by simpa using hbracket), bind_of_some hsetting]
  rfl

/-- A line that opens a table. -/
theorem line_table :
    line ('[' :: (n ++ ']' :: '\n' :: rest))
      = some (.openTable [] (String.ofList n), '\n' :: rest) := by
  obtain ⟨d, ds, hname, hd⟩ := exists_cons_of_isBareName hn
  have hbracket : d ≠ '[' := ne_of_isBare hd (by decide)
  have hword (cs : List Char) : word "[" ('[' :: cs) = some ((), cs) := rfl
  have hclose (cs : List Char) : word "]" (']' :: cs) = some ((), cs) := rfl
  have hkey := key_bare hn (c := ']') (by decide) (skipBlank_of_not_isBlank rfl ('\n' :: rest))
    (by decide)
  have hpeek : peek? (n ++ ']' :: '\n' :: rest) = some (some d, n ++ ']' :: '\n' :: rest) := by
    rw [hname]
    rfl
  rw [line, bind_of_some (peek?_cons _ _), if_pos rfl, bind_of_some (hword _), bind_of_some hpeek,
    if_neg (by simpa using hbracket), bind_of_some hkey]
  show (word "]" >>= _) _ = _
  rw [bind_of_some (hclose _)]
  rfl

/-- A line that opens one more table. -/
theorem line_next :
    line ('[' :: '[' :: (n ++ ']' :: ']' :: '\n' :: rest))
      = some (.openNext [] (String.ofList n), '\n' :: rest) := by
  have hword (cs : List Char) : word "[" ('[' :: cs) = some ((), cs) := rfl
  have hclose (cs : List Char) : word "]]" (']' :: ']' :: cs) = some ((), cs) := rfl
  have hkey := key_bare hn (c := ']') (by decide)
    (skipBlank_of_not_isBlank rfl (']' :: '\n' :: rest)) (by decide)
  rw [line, bind_of_some (peek?_cons _ _), if_pos rfl, bind_of_some (hword _),
    bind_of_some (peek?_cons _ _), if_pos rfl, bind_of_some (hword _), bind_of_some hkey]
  show (word "]]" >>= _) _ = _
  rw [bind_of_some (hclose _)]
  rfl

end Lines

theorem lineEnd_feed (rest : List Char) : lineEnd ('\n' :: rest) = some ((), rest) := rfl

/-- The lines that a text amounts to. -/
def Amounts (t : List Char) (ls : List Line) : Prop :=
  ∀ fuel, t.length < fuel → documentLines fuel t = some (ls, [])

theorem Amounts.nil : Amounts [] [] := by
  intro fuel hfuel
  obtain ⟨fuel, rfl⟩ := Nat.exists_eq_add_one.2 hfuel
  rfl

/-- A line without anything on it does nothing. -/
theorem Amounts.feed {t : List Char} {ls : List Line} (h : Amounts t ls) :
    Amounts ('\n' :: t) ls := by
  intro fuel hfuel
  obtain ⟨fuel, rfl⟩ := Nat.exists_eq_add_one.2 (Nat.zero_lt_of_lt hfuel)
  have hrest := h fuel (by simpa using hfuel)
  rw [documentLines, bind_of_some (skipBlank_of_not_isBlank rfl t),
    bind_of_some (peek?_cons _ _)]
  show (if _ then _ else _ : Reader (List Line)) _ = _
  rw [if_pos (by decide), bind_of_some (lineEnd_feed t)]
  exact hrest

theorem Amounts.line {c : Char} (front : List Char) {t : List Char} {l : Line} {ls : List Line}
    (hc : isBlank c = false ∧ c ≠ '#' ∧ c ≠ '\n' ∧ c ≠ '\r')
    (hline : Reader.line (c :: (front ++ '\n' :: t)) = some (l, '\n' :: t)) (h : Amounts t ls) :
    Amounts (c :: (front ++ '\n' :: t)) (l :: ls) := by
  intro fuel hfuel
  obtain ⟨fuel, rfl⟩ := Nat.exists_eq_add_one.2 (Nat.zero_lt_of_lt hfuel)
  have hrest := h fuel (by
    rw [List.length_cons, List.length_append, List.length_cons] at hfuel
    omega)
  have hfull : ¬ (c == '#' || c == '\n' || c == '\r') = true := by
    simp [hc.2.1, hc.2.2.1, hc.2.2.2]
  rw [documentLines, bind_of_some (skipBlank_of_not_isBlank hc.1 _),
    bind_of_some (peek?_cons _ _)]
  show (if _ then _ else _ : Reader (List Line)) _ = _
  rw [if_neg hfull, bind_of_some hline, bind_of_some (lineEnd_feed t), bind_of_some hrest]
  rfl

section Lines

variable {n t : List Char} {ls : List Line} (hn : isBareName n = true) (h : Amounts t ls)
include hn h

theorem Amounts.setting {written : List Char} {v : Value} (hv : Denotes written v) :
    Amounts (n ++ ' ' :: '=' :: ' ' :: (written ++ '\n' :: t))
      (.set [] (String.ofList n) v :: ls) := by
  have hline := line_setting hn t hv
  obtain ⟨d, ds, rfl, hd⟩ := exists_cons_of_isBareName hn
  have hfront : isBlank d = false ∧ d ≠ '#' ∧ d ≠ '\n' ∧ d ≠ '\r' :=
    ⟨isBlank_of_isBare hd, ne_of_isBare hd (by decide), ne_of_isBare hd (by decide),
      ne_of_isBare hd (by decide)⟩
  have hamounts := Amounts.line (ds ++ ' ' :: '=' :: ' ' :: written) hfront
    (by simpa using hline) h
  simpa using hamounts

theorem Amounts.table :
    Amounts ('[' :: (n ++ ']' :: '\n' :: t)) (.openTable [] (String.ofList n) :: ls) := by
  have hamounts := Amounts.line (n ++ [']']) (c := '[') (by decide)
    (by simpa using line_table hn t) h
  simpa using hamounts

theorem Amounts.next :
    Amounts ('[' :: '[' :: (n ++ ']' :: ']' :: '\n' :: t))
      (.openNext [] (String.ofList n) :: ls) := by
  have hamounts := Amounts.line ('[' :: (n ++ [']', ']'])) (c := '[') (by decide)
    (by simpa using line_next hn t) h
  simpa using hamounts

end Lines

end Reader

open Reader

/-- No line begins with a byte order mark. -/
theorem not_amounts_mark {t : List Char} {ls : List Line} : ¬ Amounts ('\uFEFF' :: t) ls := by
  intro h
  have hpart : keyPart ('\uFEFF' :: t) = none := by
    have hbare : some' isBare ('\uFEFF' :: t) = none := rfl
    have hforms : (basic <|> literal <|> (do return String.ofList (← some' isBare)) :
        Reader String) ('\uFEFF' :: t) = none := by
      rw [orElse_of_none (basic_of_ne (by decide) t), orElse_of_none (literal_of_ne (by decide) t)]
      exact bind_of_none hbare
    rw [keyPart, bind_of_some (skipBlank_of_not_isBlank rfl t), bind_of_none hforms]
  have hline : line ('\uFEFF' :: t) = none := by
    have hsetting : setting (value deepest) ('\uFEFF' :: t) = none :=
      bind_of_none (bind_of_none hpart)
    rw [line, bind_of_some (peek?_cons _ _), if_neg (by decide), bind_of_none hsetting]
  have hlines := h (t.length + 2) (by simp)
  rw [documentLines, bind_of_some (skipBlank_of_not_isBlank rfl t),
    bind_of_some (peek?_cons _ _)] at hlines
  simp only [if_neg (show ¬ ('\uFEFF' == '#' || '\uFEFF' == '\n' || '\uFEFF' == '\r') = true by
    decide), bind_of_none hline] at hlines
  cases hlines

/-! ## tables -/

namespace Entries

section Within

variable {change : Origin → Entries → Option Entries} {entries : Entries} {key : String}
  {rest : List String} {origin : Origin}

theorem within_cons_of_table {made : Origin} {inner : Entries}
    (h : entries.find key = some (.table made inner)) :
    within false change (key :: rest) origin entries
      = (within false change rest made inner).map
        fun changed => entries.put key (.table made changed) := by
  rw [within]
  simp only [h, Bool.false_eq_true, false_and, if_false]
  cases within false change rest made inner <;> rfl

theorem within_cons_of_tables {all : List Entries} {last : Entries}
    (h : entries.find key = some (.tables (all ++ [last]))) :
    within false change (key :: rest) origin entries
      = (within false change rest .header last).map
        fun changed => entries.put key (.tables (all ++ [changed])) := by
  rw [within]
  simp only [h, List.getLast?_concat, List.dropLast_concat]
  cases within false change rest .header last <;> rfl

end Within

/-- A key that is new goes behind all others. -/
theorem set_of_new {entries : Entries} {key : String} (h : entries.find key = none) (v : Value) :
    entries.set [] key v = some (entries ++ [(key, .value v)]) := by
  have hput : entries.put key (.value v) = entries ++ [(key, .value v)] :=
    replaceEntry_of_lookup_eq_none h _
  rw [set, within, if_neg (by simp), h]
  simp [hput]

end Entries

/-- A table that is open grows by every key that is new in it. -/
def Grows (frame : Entries → Draft) : Prop :=
  ∀ (inner : Entries) (key : String) (v : Value), inner.find key = none →
    (frame inner).add (.set [] key v) = some (frame (inner ++ [(key, .value v)]))

theorem grows_document : Grows fun inner => ⟨inner, []⟩ := by
  intro inner key v h
  have hset : Entries.setAt [] [] key v inner = some (inner ++ [(key, .value v)]) := by
    rw [Entries.setAt, Entries.within]
    exact Entries.set_of_new h v
  simp only [Draft.add, hset]
  rfl

section Frames

variable {entries : Entries} {name : String} (hname : entries.find name = none)
include hname

theorem find_last (item : Item) : Entries.find (entries ++ [(name, item)]) name = some item := by
  rw [Entries.find, List.lookup_append, show entries.lookup name = none from hname]
  simp

theorem put_last (item new : Item) :
    Entries.put (entries ++ [(name, item)]) name new = entries ++ [(name, new)] :=
  replaceEntry_last hname item new

theorem grows_table : Grows fun inner => ⟨entries ++ [(name, .table .header inner)], [name]⟩ := by
  intro inner key v h
  have hset : Entries.setAt [name] [] key v (entries ++ [(name, .table .header inner)])
      = some (entries ++ [(name, .table .header (inner ++ [(key, .value v)]))]) := by
    rw [Entries.setAt, Entries.within_cons_of_table (find_last hname _), Entries.within,
      Entries.set_of_new h v, Option.map_some, put_last hname]
  simp only [Draft.add, hset]
  rfl

theorem grows_tables (all : List Entries) :
    Grows fun inner => ⟨entries ++ [(name, .tables (all ++ [inner]))], [name]⟩ := by
  intro inner key v h
  have hset : Entries.setAt [name] [] key v (entries ++ [(name, .tables (all ++ [inner]))])
      = some (entries ++ [(name, .tables (all ++ [inner ++ [(key, .value v)]]))]) := by
    rw [Entries.setAt, Entries.within_cons_of_tables (find_last hname _), Entries.within,
      Entries.set_of_new h v, Option.map_some, put_last hname]
  simp only [Draft.add, hset]
  rfl

theorem add_openTable (current : List String) :
    Draft.add ⟨entries, current⟩ (.openTable [] name)
      = some ⟨entries ++ [(name, .table .header [])], [name]⟩ := by
  have hput : entries.put name (.table .header []) = entries ++ [(name, .table .header [])] :=
    replaceEntry_of_lookup_eq_none hname _
  simp only [Draft.add, Entries.openTable, Entries.within, hname, hput]
  rfl

theorem add_openNext_first (current : List String) :
    Draft.add ⟨entries, current⟩ (.openNext [] name)
      = some ⟨entries ++ [(name, .tables [[]])], [name]⟩ := by
  have hput : entries.put name (.tables [[]]) = entries ++ [(name, .tables [[]])] :=
    replaceEntry_of_lookup_eq_none hname _
  simp only [Draft.add, Entries.openNext, Entries.within, hname, hput]
  rfl

theorem add_openNext (all : List Entries) (current : List String) :
    Draft.add ⟨entries ++ [(name, .tables all)], current⟩ (.openNext [] name)
      = some ⟨entries ++ [(name, .tables (all ++ [[]]))], [name]⟩ := by
  simp only [Draft.add, Entries.openNext, Entries.within, find_last hname, put_last hname]
  rfl

end Frames

/-! ## settings -/

/-- The entries that settings make. -/
def settingEntries (sets : List (String × Value)) : Entries :=
  sets.map fun s => (s.1, .value s.2)

theorem find_settingEntries (sets : List (String × Value)) (key : String) :
    Entries.find (settingEntries sets) key = (sets.lookup key).map .value := by
  induction sets with
  | nil => rfl
  | cons s sets ih =>
      show List.lookup key ((s.1, Item.value s.2) :: settingEntries sets) = _
      rw [lookup_cons_eq, lookup_cons_eq]
      split
      · rfl
      · exact ih

/-- The lines that make settings. -/
def settingSteps (sets : List (String × Value)) : List Line := sets.map fun s => .set [] s.1 s.2

/-- The lines of a table under a header. -/
def tableSteps (name : String) (sets : List (String × Value)) : List Line :=
  .openTable [] name :: settingSteps sets

/-- The lines of a table under a header in double brackets. -/
def nextSteps (name : String) (sets : List (String × Value)) : List Line :=
  .openNext [] name :: settingSteps sets

/-- Settings whose keys are new, and of which no two have the same key, are all made. -/
theorem Grows.foldlM {frame : Entries → Draft} (h : Grows frame) (inner : Entries)
    {sets : List (String × Value)} (hnew : ∀ s ∈ sets, inner.find s.1 = none)
    (hdistinct : (sets.map Prod.fst).Nodup) :
    (settingSteps sets).foldlM Draft.add (frame inner)
      = some (frame (inner ++ settingEntries sets)) := by
  induction sets generalizing inner with
  | nil => simp [settingSteps, settingEntries]
  | cons s sets ih =>
      obtain ⟨hs, hnew⟩ := List.forall_mem_cons.1 hnew
      obtain ⟨hnot, hdistinct⟩ := List.nodup_cons.1 hdistinct
      have hnew' (t : String × Value) (ht : t ∈ sets) :
          Entries.find (inner ++ [(s.1, .value s.2)]) t.1 = none := by
        have hne : t.1 ≠ s.1 := fun heq => hnot (heq ▸ List.mem_map_of_mem ht)
        rw [Entries.find, List.lookup_append, show inner.lookup t.1 = none from hnew t ht,
          lookup_cons_eq, if_neg hne]
        rfl
      have hrest := ih _ hnew' hdistinct
      rw [List.append_assoc] at hrest
      rw [settingSteps, List.map_cons, List.foldlM_cons, h inner s.1 s.2 hs]
      exact hrest

section Headers

variable {entries : Entries} {name : String} (hname : entries.find name = none)
include hname

/-- The lines of a table put it behind all other entries. -/
theorem foldlM_table {sets : List (String × Value)} (hdistinct : (sets.map Prod.fst).Nodup)
    (current : List String) :
    (tableSteps name sets).foldlM Draft.add ⟨entries, current⟩
      = some ⟨entries ++ [(name, .table .header (settingEntries sets))], [name]⟩ := by
  have hsets := (grows_table hname).foldlM [] (fun _ _ => rfl) hdistinct
  rw [tableSteps, List.foldlM_cons, add_openTable hname]
  exact hsets

/-- The lines of further tables under the same header. -/
theorem foldlM_nexts {tables : List (List (String × Value))}
    (hdistinct : ∀ sets ∈ tables, (sets.map Prod.fst).Nodup) (all : List Entries)
    (current : List String) :
    ∃ open', (tables.flatMap (nextSteps name)).foldlM Draft.add
        ⟨entries ++ [(name, .tables all)], current⟩
      = some ⟨entries ++ [(name, .tables (all ++ tables.map settingEntries))], open'⟩ := by
  induction tables generalizing all current with
  | nil => exact ⟨current, by simp⟩
  | cons sets tables ih =>
      obtain ⟨hsets, hdistinct⟩ := List.forall_mem_cons.1 hdistinct
      have hfirst : (nextSteps name sets).foldlM Draft.add
            ⟨entries ++ [(name, .tables all)], current⟩
          = some ⟨entries ++ [(name, .tables (all ++ [settingEntries sets]))], [name]⟩ := by
        rw [nextSteps, List.foldlM_cons, add_openNext hname]
        exact (grows_tables hname all).foldlM [] (fun _ _ => rfl) hsets
      obtain ⟨open', hrest⟩ := ih hdistinct (all ++ [settingEntries sets]) [name]
      refine ⟨open', ?_⟩
      rw [List.flatMap_cons, List.foldlM_append, hfirst, Option.bind_eq_bind, Option.bind_some,
        hrest, List.append_assoc, List.map_cons]
      rfl

/-- The lines of one table or more put an array of them behind all other entries. -/
theorem foldlM_tables {tables : List (List (String × Value))} (hne : tables ≠ [])
    (hdistinct : ∀ sets ∈ tables, (sets.map Prod.fst).Nodup) (current : List String) :
    ∃ open', (tables.flatMap (nextSteps name)).foldlM Draft.add ⟨entries, current⟩
      = some ⟨entries ++ [(name, .tables (tables.map settingEntries))], open'⟩ := by
  obtain ⟨sets, tables, rfl⟩ := List.exists_cons_of_ne_nil hne
  obtain ⟨hsets, hdistinct⟩ := List.forall_mem_cons.1 hdistinct
  have hfirst : (nextSteps name sets).foldlM Draft.add ⟨entries, current⟩
      = some ⟨entries ++ [(name, .tables [settingEntries sets])], [name]⟩ := by
    rw [nextSteps, List.foldlM_cons, add_openNext_first hname]
    exact (grows_tables hname []).foldlM [] (fun _ _ => rfl) hsets
  obtain ⟨open', hrest⟩ := foldlM_nexts hname hdistinct [settingEntries sets] [name]
  refine ⟨open', ?_⟩
  rw [List.flatMap_cons, List.foldlM_append, hfirst, Option.bind_eq_bind, Option.bind_some, hrest]
  rfl

end Headers

/-! ## finished tables -/

theorem entryValues_append (l l' : Entries) :
    Item.entryValues false (l ++ l') = Item.entryValues false l ++ Item.entryValues false l' := by
  induction l with
  | nil => simp [Item.entryValues]
  | cons e l ih => simp [Item.entryValues, ih]

theorem entryValues_settingEntries (sets : List (String × Value)) :
    Item.entryValues false (settingEntries sets) = sets := by
  induction sets with
  | nil => rfl
  | cons s sets ih =>
      show (s.1, s.2) :: Item.entryValues false (settingEntries sets) = s :: sets
      rw [ih]

theorem tableValues_settingEntries (tables : List (List (String × Value))) :
    Item.tableValues false (tables.map settingEntries) = tables.map (.table false) := by
  induction tables with
  | nil => rfl
  | cons sets tables ih =>
      rw [List.map_cons, List.map_cons, Item.tableValues, entryValues_settingEntries, ih]

/-- A document is the table that its lines amount to. -/
theorem parse?_of_amounts {s : String} {ls : List Line} {d : Draft} (h : Amounts s.toList ls)
    (hdraft : ls.foldlM Draft.add ⟨[], []⟩ = some d) :
    parse? s = some (d.entries.toValue false) := by
  rw [parse?]
  split
  · next rest htext => exact absurd (htext ▸ h) not_amounts_mark
  · have hlines := h (s.toList.length + 1) (Nat.lt_succ_self _)
    simp only [StateT.run, hlines, Option.bind_eq_bind, Option.bind_some]
    rw [if_neg (by simp), hdraft]
    rfl

end ControlPlane.Toml
