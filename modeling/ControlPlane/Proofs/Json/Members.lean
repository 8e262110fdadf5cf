import ControlPlane.Json.Form
import ControlPlane.Proofs.Json.Shape
import ControlPlane.Proofs.Text.Order
import Mathlib.Data.List.Forall2
import Mathlib.Data.List.Nodup

/-!
# ControlPlane.Proofs.Json.Members

Shapes with names read compact text: a map reads its entries if its key and its value do
(`Reads.mapWith`), a record reads its members if each of them does, in the order of the shape
(`Reads.record`) or in another (`Takes.record`), and a choice reads the names of its variants
(`Reads.choice_name`).
-/

namespace ControlPlane.Json

open Reader

/-- A member in compact text. -/
def memberText (m : String × Json) : List Char := quote m.1 ++ ':' :: m.2.compact

/-- Members in compact text: a first one, and further ones behind commas. -/
theorem compactMembers_cons (m : String × Json) (rest : List (String × Json)) :
    compactMembers (m :: rest) = memberText m ++ behindCommas memberText rest := by
  induction rest generalizing m with
  | nil => simp [compactMembers, memberText]
  | cons next rest ih =>
      rw [compactMembers, ih, behindCommas_cons]
      · simp [memberText]
      · exact List.cons_ne_nil _ _

/-- A member takes a character at least. -/
theorem length_le_compactMembers (l : List (String × Json)) :
    l.length ≤ (compactMembers l).length := by
  cases l with
  | nil => exact Nat.zero_le _
  | cons m l =>
      have hlen := length_le_behindCommas memberText l
      rw [compactMembers_cons, memberText, quote]
      simp only [List.length_append, List.length_cons]
      omega

/-! ## whether there is another member -/

theorem nextMember_end (first : Bool) (rest : List Char) :
    nextMember first ('}' :: rest) = .ok (false, '}' :: rest) := by
  rw [nextMember, bind_of_ok (peekToken?_cons (by decide) rest)]
  rfl

theorem nextMember_first (m : String × Json) (rest : List Char) :
    nextMember true (memberText m ++ rest) = .ok (true, memberText m ++ rest) := by
  rw [memberText, quote, List.cons_append, List.cons_append, nextMember,
    bind_of_ok (peekToken?_cons (by decide) _)]
  rfl

theorem nextMember_comma (m : String × Json) (rest : List Char) :
    nextMember false (',' :: (memberText m ++ rest)) = .ok (true, memberText m ++ rest) := by
  rw [memberText, quote, List.cons_append, List.cons_append, nextMember,
    bind_of_ok (peekToken?_cons (by decide) _)]
  show (advance >>= _) _ = _
  rw [bind_of_ok (advance_cons ',' _), bind_of_ok (peekToken?_cons (by decide) _), if_pos rfl]
  rfl

/-! ## maps -/

/-- An entry is taken for another if its key and its value are. -/
def TakesEntry (key : Reader String) (value : Reader Json) (m n : String × Json) : Prop :=
  (∀ rest, key (quote m.1 ++ rest) = .ok (n.1, rest)) ∧ Takes value m.2 n.2

/-- An entry that is there is read, and then those behind it. -/
theorem entries_of_next {key : Reader String} {value : Reader Json} {m n : String × Json}
    (hm : TakesEntry key value m n) {first : Bool} {cs rest : List Char}
    (hnext : nextMember first cs = .ok (true, memberText m ++ rest)) (hrest : Closed rest)
    {ks : List (String × Json)} {left : List Char} {fuel : Nat}
    (hks : entries key value fuel false rest = .ok (ks, left)) :
    entries key value (fuel + 1) first cs = .ok (n :: ks, left) := by
  rw [memberText, List.append_assoc, List.cons_append] at hnext
  rw [entries, bind_of_ok hnext, if_pos rfl, bind_of_ok (hm.1 _),
    bind_of_ok (expect_cons (by decide) _), bind_of_ok (hm.2.run rest hrest), bind_of_ok hks]
  rfl

/-- The entries behind the first are read one after the other. -/
theorem entries_behindCommas {key : Reader String} {value : Reader Json}
    {l ks : List (String × Json)} (h : List.Forall₂ (TakesEntry key value) l ks) {fuel : Nat}
    (hfuel : l.length < fuel) (rest : List Char) :
    entries key value fuel false (behindCommas memberText l ++ '}' :: rest)
      = .ok (ks, '}' :: rest) := by
  induction h generalizing fuel with
  | nil =>
      obtain ⟨fuel, rfl⟩ := Nat.exists_eq_add_one.2 hfuel
      rw [behindCommas_nil, List.nil_append, entries, bind_of_ok (nextMember_end false rest)]
      rfl
  | @cons m n l ks hm hl ih =>
      obtain ⟨fuel, rfl⟩ := Nat.exists_eq_add_one.2 (Nat.zero_lt_of_lt hfuel)
      refine entries_of_next hm ?_ (closed_behindCommas l (by decide) rest)
        (ih (by simpa using hfuel))
      rw [behindCommas_cons, List.cons_append, List.append_assoc, nextMember_comma]

/-- **Maps**: entries that are taken for others make a map that is taken for theirs. -/
theorem Takes.mapWith {key : Reader String} {value : Reader Json} {l ks : List (String × Json)}
    (h : List.Forall₂ (TakesEntry key value) l ks) :
    Takes (Reader.mapWith key value) (.record l) (.record ks) where
  opens := ⟨'{', _, rfl, by decide, by decide⟩
  run rest _ := by
    have hentries : entries key value ((compactMembers l ++ '}' :: rest).length + 1) true
        (compactMembers l ++ '}' :: rest) = .ok (ks, '}' :: rest) := by
      cases h with
      | nil =>
          rw [entries, compactMembers, List.nil_append, bind_of_ok (nextMember_end true rest)]
          rfl
      | @cons m n l ks hm hl =>
          have hlen := length_le_behindCommas memberText l
          rw [compactMembers_cons, List.append_assoc]
          refine entries_of_next hm (nextMember_first m _)
            (closed_behindCommas l (by decide) rest) (entries_behindCommas hl ?_ rest)
          simp only [List.length_append, List.length_cons]
          omega
    have htext : compact (.record l) ++ rest = '{' :: (compactMembers l ++ '}' :: rest) := by
      simp [compact]
    rw [htext, Reader.mapWith, bind_of_ok (peekToken?_cons (by decide) _), if_pos rfl,
      bind_of_ok (advance_cons '{' _), bind_of_ok (get_eq _), bind_of_ok hentries,
      bind_of_ok (expect_cons (by decide) rest)]
    rfl

/-- Entries whose keys and values are read make a map that is read. -/
theorem Reads.mapWith {key : Reader String} {value : Reader Json} {l : List (String × Json)}
    (hkey : ∀ m ∈ l, ∀ rest, key (quote m.1 ++ rest) = .ok (m.1, rest))
    (hvalue : ∀ m ∈ l, Reads value m.2) : Reads (Reader.mapWith key value) (.record l) :=
  Takes.mapWith (List.forall₂_same.2 fun m hm => ⟨hkey m hm, hvalue m hm⟩)

/-! ## looking up by name -/

/-- A member is found by its name, if it is the only one of that name. -/
theorem find?_name {members : List Reader.Member} (h : (members.map (·.name)).Nodup)
    {m : Reader.Member} (hm : m ∈ members) : members.find? (·.name == m.name) = some m := by
  obtain ⟨before, after, rfl⟩ := List.append_of_mem hm
  rw [List.map_append, List.map_cons, List.nodup_middle, List.nodup_cons] at h
  refine List.find?_eq_some_iff_append.2 ⟨by simp, before, after, rfl, fun m' hm' => ?_⟩
  have hne : m'.name ≠ m.name := fun heq =>
    h.1 (List.mem_append_left _ (heq ▸ List.mem_map_of_mem hm'))
  simpa using hne

/-- A value is looked up by its name, if it is the only one of that name. -/
theorem lookup_of_mem {l : List (String × Json)} (h : (l.map Prod.fst).Nodup)
    {p : String × Json} (hp : p ∈ l) : l.lookup p.1 = some p.2 := by
  obtain ⟨before, after, rfl⟩ := List.append_of_mem hp
  rw [List.map_append, List.map_cons, List.nodup_middle, List.nodup_cons] at h
  refine List.lookup_eq_some_iff.2 ⟨before, after, rfl, fun p' hp' => ?_⟩
  have hne : p.1 ≠ p'.1 := fun heq =>
    h.1 (List.mem_append_left _ (heq ▸ List.mem_map_of_mem hp'))
  simpa using hne

/-! ## records -/

/-- Members with their values, as a record has them. -/
def pairs (l : List (Reader.Member × Json)) : List (String × Json) := l.map fun p => (p.1.name, p.2)

@[simp] theorem pairs_nil : pairs [] = [] := rfl

@[simp] theorem pairs_cons (p : Reader.Member × Json) (l : List (Reader.Member × Json)) :
    pairs (p :: l) = (p.1.name, p.2) :: pairs l := rfl

/-- A member that is known and new is read, and then those behind it. -/
theorem membersFound_of_next {members : List Reader.Member} {m : Reader.Member} {j v : Json}
    (hm : members.find? (·.name == m.name) = some m) (hv : Takes m.value j v)
    {found : List (String × Json)} (hnew : m.name ∉ found.map Prod.fst) {first : Bool}
    {cs rest : List Char}
    (hnext : nextMember first cs = .ok (true, memberText (m.name, j) ++ rest))
    (hrest : Closed rest) (fuel : Nat) :
    membersFound members (fuel + 1) first found cs
      = membersFound members fuel false (found ++ [(m.name, v)]) rest := by
  have hlookup : found.lookup m.name = none := List.lookup_eq_none_iff.2 fun p hp => by
    have hne : m.name ≠ p.1 := fun heq => hnew (heq ▸ List.mem_map_of_mem hp)
    simpa using hne
  rw [memberText, List.append_assoc, List.cons_append] at hnext
  rw [membersFound, bind_of_ok hnext, if_pos rfl, bind_of_ok (string_quote _ _)]
  simp only [hm, hlookup, Option.isSome_none, Bool.false_eq_true, if_false]
  show (expect ':' >>= _) _ = _
  rw [bind_of_ok (expect_cons (by decide) _), bind_of_ok (hv.run rest hrest)]

/-- What stands in a record is taken for the value of a member. -/
def TakesMember (m : String × Json) (p : Reader.Member × Json) : Prop :=
  m.1 = p.1.name ∧ Takes p.1.value m.2 p.2

/-- Members with values that are read are taken for themselves. -/
theorem forall₂_pairs {l : List (Reader.Member × Json)} (h : ∀ p ∈ l, Reads p.1.value p.2) :
    List.Forall₂ TakesMember (pairs l) l :=
  List.forall₂_map_left_iff.2 (List.forall₂_same.2 fun p hp => ⟨rfl, h p hp⟩)

/-- Members behind the first are read one after the other, and then what follows them. -/
theorem membersFound_behindCommas {members : List Reader.Member}
    (hnames : (members.map (·.name)).Nodup) {texts : List (String × Json)}
    {l : List (Reader.Member × Json)} (htexts : List.Forall₂ TakesMember texts l)
    (hl : ∀ p ∈ l, p.1 ∈ members) {found : List (String × Json)}
    (hnew : ((found ++ pairs l).map Prod.fst).Nodup) {c : Char}
    (hc : Decimal.isDigit c = false ∧ c ≠ '.' ∧ c ≠ 'e' ∧ c ≠ 'E') (fuel : Nat)
    (rest : List Char) :
    membersFound members (fuel + l.length) false found (behindCommas memberText texts ++ c :: rest)
      = membersFound members fuel false (found ++ pairs l) (c :: rest) := by
  induction htexts generalizing found with
  | nil =>
      rw [pairs_nil, behindCommas_nil, List.append_nil, List.nil_append]
      rfl
  | @cons m p texts l hm _ ih =>
      obtain ⟨name, j⟩ := m
      obtain ⟨rfl, hread⟩ := hm
      have hfresh : p.1.name ∉ found.map Prod.fst := by
        rw [pairs_cons, List.map_append, List.map_cons, List.nodup_middle, List.nodup_cons] at hnew
        exact fun h => hnew.1 (List.mem_append_left _ h)
      have hnext : nextMember false (behindCommas memberText ((p.1.name, j) :: texts) ++ c :: rest)
          = .ok (true, memberText (p.1.name, j)
            ++ (behindCommas memberText texts ++ c :: rest)) := by
        rw [behindCommas_cons, List.cons_append, List.append_assoc, nextMember_comma]
      rw [List.length_cons, ← Nat.add_assoc,
        membersFound_of_next (find?_name hnames (hl p List.mem_cons_self)) hread hfresh hnext
          (closed_behindCommas _ hc rest),
        ih (fun p hp => hl p (List.mem_cons_of_mem _ hp)) (by simpa using hnew)]
      simp

/-- The end of a record ends its members. -/
theorem membersFound_end (members : List Reader.Member) (first : Bool)
    (found : List (String × Json)) (fuel : Nat) (rest : List Char) :
    membersFound members (fuel + 1) first found ('}' :: rest) = .ok (found, '}' :: rest) := by
  rw [membersFound, bind_of_ok (nextMember_end first rest)]
  rfl

/-- Where all members are found, none is filled in. -/
theorem complete_pairs {found : List (String × Json)} {l : List (Reader.Member × Json)}
    (h : ∀ p ∈ l, found.lookup p.1.name = some p.2) (cs : List Char) :
    complete found (l.map Prod.fst) cs = .ok (pairs l, cs) := by
  induction l with
  | nil => rfl
  | cons p l ih =>
      have hp := h p List.mem_cons_self
      have hl := ih fun p hp => h p (List.mem_cons_of_mem _ hp)
      rw [List.map_cons, complete]
      simp only [hp, Option.orElse_eq_orElse, Option.orElse_some]
      rw [bind_of_ok hl]
      rfl

/-- **Records**: members that are taken for values of all members, in whatever order, make a record
that is taken for the values in the order of the members. -/
theorem Takes.record {members : List Reader.Member} {values : List Json}
    (hnames : (members.map (·.name)).Nodup) (hlen : members.length = values.length)
    {texts : List (String × Json)} {l : List (Reader.Member × Json)}
    (htexts : List.Forall₂ TakesMember texts l) (hl : l.Perm (members.zip values)) :
    Takes (Reader.record members) (.record texts) (named members values) where
  opens := ⟨'{', _, rfl, by decide, by decide⟩
  run rest _ := by
    have hzip : (members.zip values).map Prod.fst = members := List.map_fst_zip (Nat.le_of_eq hlen)
    have hnamed : (members.map (·.name)).zip values = pairs (members.zip values) :=
      List.zip_map_left ..
    have hmem : ∀ p ∈ l, p.1 ∈ members := fun p hp => (List.of_mem_zip (hl.mem_iff.1 hp)).1
    have hfst : ((pairs l).map Prod.fst).Nodup := by
      have hperm := (hl.map fun p => (p.1.name, p.2)).map Prod.fst
      refine hperm.nodup_iff.2 ?_
      rw [← pairs, ← hnamed, List.map_fst_zip (by simp [hlen])]
      exact hnames
    have hfound : membersFound members ((compactMembers texts ++ '}' :: rest).length + 1) true []
        (compactMembers texts ++ '}' :: rest) = .ok (pairs l, '}' :: rest) := by
      cases htexts with
      | nil => exact membersFound_end _ true [] _ rest
      | @cons m p texts l hm htexts =>
          obtain ⟨name, j⟩ := m
          obtain ⟨rfl, hread⟩ := hm
          have hcount := length_le_compactMembers ((p.1.name, j) :: texts)
          have hle : 1 + l.length
              ≤ (compactMembers ((p.1.name, j) :: texts) ++ '}' :: rest).length := by
            have := htexts.length_eq
            simp only [List.length_append, List.length_cons] at hcount ⊢
            omega
          obtain ⟨fuel, hfuel⟩ := Nat.exists_eq_add_of_le' hle
          rw [hfuel, ← Nat.add_assoc, compactMembers_cons, List.append_assoc,
            membersFound_of_next (find?_name hnames (hmem p List.mem_cons_self)) hread
              List.not_mem_nil (nextMember_first _ _) (closed_behindCommas _ (by decide) rest),
            membersFound_behindCommas hnames htexts
              (fun p hp => hmem p (List.mem_cons_of_mem _ hp)) hfst (by decide), membersFound_end]
          rfl
    have hcomplete (cs : List Char) :
        complete (pairs l) members cs = .ok (pairs (members.zip values), cs) := by
      have hlookup : ∀ p ∈ members.zip values, (pairs l).lookup p.1.name = some p.2 :=
        fun p hp => lookup_of_mem hfst (p := (p.1.name, p.2))
          (List.mem_map_of_mem (hl.mem_iff.2 hp))
      have hall := complete_pairs hlookup cs
      rwa [hzip] at hall
    have htext : compact (.record texts) ++ rest
        = '{' :: (compactMembers texts ++ '}' :: rest) := by simp [compact]
    rw [htext, Reader.record, bind_of_ok (peekToken?_cons (by decide) _)]
    show (advance >>= _) _ = _
    rw [bind_of_ok (advance_cons '{' _), bind_of_ok (get_eq _), bind_of_ok hfound,
      bind_of_ok (hcomplete _), bind_of_ok (expect_cons (by decide) rest), named, hnamed]
    rfl

/-- Members that are read make a record that is read, if no two have one name. -/
theorem Reads.record {members : List Reader.Member} {values : List Json}
    (hnames : (members.map (·.name)).Nodup)
    (h : List.Forall₂ (fun m v => Reads m.value v) members values) :
    Reads (Reader.record members) (named members values) := by
  obtain ⟨hlen, hzip⟩ := List.forall₂_iff_zip.1 h
  have hnamed : (members.map (·.name)).zip values = pairs (members.zip values) :=
    List.zip_map_left ..
  have htakes := Takes.record hnames hlen (forall₂_pairs fun p hp => hzip hp) (.refl _)
  rwa [← hnamed] at htakes

/-! ## choices -/

/-- **Choices**: a variant without content is read from its name. -/
theorem Reads.choice_name {variants : List (String × Content)} {name : String}
    (h : variants.lookup name = some .nothing) : Reads (Reader.choice variants) (.text name) where
  opens := ⟨'"', _, rfl, by decide, by decide⟩
  run rest _ := by
    have htext : compact (.text name) ++ rest
        = '"' :: (name.toList.flatMap escapeChar ++ ['"'] ++ rest) := rfl
    have hstring := string_quote name rest
    rw [quote, List.cons_append] at hstring
    rw [htext, Reader.choice, bind_of_ok (peekToken?_cons (by decide) _)]
    show (string >>= _) _ = _
    rw [bind_of_ok hstring]
    simp only [h]
    rfl

/-- A variant with content is read from its name and the content, if that is read. -/
theorem Reads.choice_value {variants : List (String × Content)} {name : String}
    {value : Reader Json} {j : Json} (h : variants.lookup name = some (.value value))
    (hj : Reads value j) : Reads (Reader.choice variants) (.record [(name, j)]) where
  opens := ⟨'{', _, rfl, by decide, by decide⟩
  run rest _ := by
    have htext : compact (.record [(name, j)]) ++ rest
        = '{' :: (quote name ++ ':' :: (j.compact ++ '}' :: rest)) := by
      simp [compact, compactMembers]
    have hquote : quote name ++ ':' :: (j.compact ++ '}' :: rest)
        = '"' :: (name.toList.flatMap escapeChar ++ ['"'] ++ ':' :: (j.compact ++ '}' :: rest)) :=
      rfl
    have hcolon := expect_cons (c := ':') (by decide) (j.compact ++ '}' :: rest)
    have hvalue := hj.run ('}' :: rest) (closed_cons (by decide) rest)
    rw [htext, Reader.choice, bind_of_ok (peekToken?_cons (by decide) _)]
    show (advance >>= _) _ = _
    rw [bind_of_ok (advance_cons '{' _), hquote, bind_of_ok (peekToken?_cons (by decide) _),
      if_pos rfl, ← hquote, bind_of_ok (string_quote name _)]
    simp only [h]
    rw [bind_of_ok hcolon, bind_of_ok hvalue, pure_bind, bind_of_ok (expect_cons (by decide) rest)]
    rfl

/-! ## parts -/

/-- A text stands among those behind commas. -/
theorem infix_behindCommas {α : Type} {text : α → List Char} {l : List α} {a : α} (h : a ∈ l) :
    text a <:+: behindCommas text l := by
  have hcomma : text a <:+: ',' :: text a := (List.suffix_cons ',' (text a)).isInfix
  have hmem : ',' :: text a ∈ l.map fun a => ',' :: text a := List.mem_map_of_mem h
  rw [behindCommas, List.flatMap_def]
  exact hcomma.trans (List.infix_of_mem_flatten hmem)

/-- The text of an item stands in that of the list. -/
theorem compact_infix_list {items : List Json} {j : Json} (h : j ∈ items) :
    j.compact <:+: (list items).compact := by
  have hitems : compactItems items <:+: (list items).compact :=
    List.infix_append ['['] (compactItems items) [']']
  refine List.IsInfix.trans ?_ hitems
  cases items with
  | nil => cases h
  | cons first rest =>
      rw [compactItems_cons]
      cases h with
      | head => exact (List.prefix_append _ _).isInfix
      | tail _ h => exact (infix_behindCommas h).trans (List.suffix_append _ _).isInfix

/-- The text of a member stands in that of the record. -/
theorem compact_infix_record {members : List (String × Json)} {m : String × Json}
    (h : m ∈ members) : m.2.compact <:+: (record members).compact := by
  have hmember : m.2.compact <:+: memberText m :=
    (List.suffix_append (quote m.1 ++ [':']) m.2.compact).isInfix.trans (by simp [memberText])
  have hmembers : compactMembers members <:+: (record members).compact :=
    List.infix_append ['{'] (compactMembers members) ['}']
  refine hmember.trans (List.IsInfix.trans ?_ hmembers)
  cases members with
  | nil => cases h
  | cons first rest =>
      rw [compactMembers_cons]
      cases h with
      | head => exact (List.prefix_append _ _).isInfix
      | tail _ h => exact (infix_behindCommas h).trans (List.suffix_append _ _).isInfix

/-! ## lengths -/

/-- An item takes a character besides its own, for what stands between items. -/
theorem mul_length_lt {m : Nat} {l : List Json} (h : ∀ j ∈ l, m ≤ j.compact.length) :
    (m + 1) * l.length < (list l).compact.length := by
  have hcommas : ∀ l : List Json, (∀ j ∈ l, m ≤ j.compact.length) →
      (m + 1) * l.length ≤ (behindCommas compact l).length := by
    intro l hl
    induction l with
    | nil => exact Nat.le_refl _
    | cons j l ih =>
        have hj := hl j List.mem_cons_self
        have htail := ih fun j hj => hl j (List.mem_cons_of_mem _ hj)
        rw [List.length_cons, Nat.mul_succ]
        simp only [behindCommas_cons, List.length_cons, List.length_append]
        omega
  cases l with
  | nil => exact Nat.succ_pos _
  | cons j l =>
      have hj := h j List.mem_cons_self
      have hl := hcommas l fun j hj => h j (List.mem_cons_of_mem _ hj)
      show _ < ('[' :: (compactItems (j :: l) ++ [']'])).length
      rw [compactItems_cons, List.length_cons, Nat.mul_succ]
      simp only [List.length_cons, List.length_append]
      omega

/-- A character takes as many characters as it is escaped to, each time. -/
theorem length_quote_replicate (n : Nat) (c : Char) :
    (quote (String.ofList (List.replicate n c))).length = n * (escapeChar c).length + 2 := by
  have hbody : ((List.replicate n c).flatMap escapeChar).length = n * (escapeChar c).length := by
    rw [List.length_flatMap, List.map_replicate, List.sum_replicate_nat]
  rw [quote, String.toList_ofList, List.length_cons, List.length_append, hbody]
  rfl

/-- The compact text has at least as many bytes as characters. -/
theorem length_compact_le_encode (j : Json) :
    j.compact.length ≤ (Utf8.encode j.render).length := by
  have hlength := Utf8.length_le_length_encode j.render
  rwa [render, String.length_ofList] at hlength

end ControlPlane.Json
