import ControlPlane.Proofs.Json.Bounded
import ControlPlane.Proofs.SortedMap
import ControlPlane.Proofs.Text.Characters

/-!
# ControlPlane.Proofs.Json.BoundedForm

The readers of shapes, and the forms, keep to the bound of their text.  A list or map has no more
items than its text has characters, and each of them is what the reader of items returns; of a
record, each value is what the reader of its member returns.  What a value of a form is bounded by
is stated of the value itself (`Form.Bounded`), which may be read off the front of bytes
(`Form.Bounded.parseFront`).
-/

namespace ControlPlane.Json

namespace Reader

variable {α : Type} {n : Nat} {P : Json → Prop}

/-! ## scalars -/

theorem bounded_otherKind {P : α → Prop} : Bounded n P (otherKind (α := α)) := by
  unfold otherKind
  refine bounded_peek?.bind fun c _ => ?_
  split
  · exact (bounded_word _).bind fun _ _ => .throw _
  · exact (bounded_word _).bind fun _ _ => .throw _
  · exact (bounded_word _).bind fun _ _ => .throw _
  · exact bounded_string.bind fun _ _ => .throw _
  · exact .throw _
  · exact .throw _
  · next c _ _ _ _ _ _ =>
      split
      · exact bounded_number.bind fun _ _ => .throw _
      · exact .throw _
  · exact .throw _

theorem bounded_null : Bounded n (fun _ => True) null := by
  refine bounded_peekToken?.bind fun _ _ => ?_
  split
  · exact (bounded_word _).bind fun _ _ => .pure .intro
  · exact bounded_otherKind

theorem bounded_integer (low high : Int) : Bounded n (fun _ => True) (integer low high) := by
  refine bounded_number.bind fun a _ => ?_
  split
  · split
    · exact .pure .intro
    · exact .throw _
  · exact .throw _

theorem bounded_int (low high : Int) : Bounded n (fun _ => True) (int low high) := by
  refine bounded_peekToken?.bind fun _ _ => ?_
  split
  · split
    · exact bounded_integer low high
    · exact bounded_otherKind
  · exact .throw _

/-- A text has at most the characters that it is read from. -/
theorem bounded_text : Bounded n (fun j => ∃ s, j = .text s ∧ s.length ≤ n) text := by
  refine bounded_peekToken?.bind fun _ _ => ?_
  split
  · exact bounded_string.bind fun s hs => .pure ⟨s, rfl, hs⟩
  · exact bounded_otherKind

/-! ## lists -/

theorem bounded_nextItem (first : Bool) : Bounded n (fun _ => True) (nextItem first) := by
  refine bounded_peekToken?.bind fun _ _ => ?_
  split
  · exact .pure .intro
  · split
    · exact .pure .intro
    · split
      · refine bounded_advance.bind fun _ _ => bounded_peekToken?.bind fun _ _ => ?_
        split
        · exact .throw _
        · exact .pure .intro
      · exact .throw _
  · exact .throw _

theorem bounded_items {item : Reader Json} (hitem : Bounded n P item) (fuel : Nat) (first : Bool) :
    Bounded n (fun l => l.length < fuel ∧ ∀ j ∈ l, P j) (items item fuel first) := by
  induction fuel generalizing first with
  | zero => exact .throw _
  | succ fuel ih =>
      refine (bounded_nextItem first).bind fun _ _ => ?_
      split
      · refine hitem.bind fun a ha => (ih false).bind fun rest hrest => .pure ⟨?_, ?_⟩
        · rw [List.length_cons]
          exact Nat.succ_lt_succ hrest.1
        · exact List.forall_mem_cons.2 ⟨ha, hrest.2⟩
      · exact .pure ⟨Nat.succ_pos fuel, fun j hj => nomatch hj⟩

/-- A list has at most as many items as characters that it is read from. -/
theorem bounded_list {item : Reader Json} (hitem : Bounded n P item) :
    Bounded n (fun j => ∃ l, j = .list l ∧ l.length ≤ n ∧ ∀ i ∈ l, P i) (list item) := by
  refine bounded_peekToken?.bind fun _ _ => ?_
  split
  · refine bounded_advance.bind fun _ _ => bounded_get.bind fun left hleft =>
      (bounded_items hitem _ true).bind fun l hl => (bounded_expect ']').bind fun _ _ =>
        .pure ⟨l, rfl, ?_, hl.2⟩
    exact Nat.le_trans (Nat.le_of_lt_succ hl.1) hleft
  · exact bounded_otherKind

/-! ## records -/

theorem bounded_nextMember (first : Bool) : Bounded n (fun _ => True) (nextMember first) := by
  refine bounded_peekToken?.bind fun _ _ => ?_
  split
  · exact .pure .intro
  · split
    · split
      · exact .pure .intro
      · exact .throw _
    · split
      · refine bounded_advance.bind fun _ _ => bounded_peekToken?.bind fun _ _ => ?_
        split
        · exact .pure .intro
        · exact .throw _
      · exact .throw _
  · exact .throw _

/-- A member whose values satisfy a condition, those that are taken for it when it is absent
too. -/
structure Member.Bounded (n : Nat) (P : Json → Prop) (m : Member) : Prop where
  value : Reader.Bounded n P m.value
  absent : ∀ v, m.absent = some v → P v
  absentInList : ∀ v, m.absentInList = some v → P v

section Record

variable {members : List Member} {P : String → Json → Prop}

theorem bounded_membersFound (h : ∀ m ∈ members, m.Bounded n (P m.name)) (fuel : Nat)
    (first : Bool) {found : List (String × Json)} (hfound : ∀ p ∈ found, P p.1 p.2) :
    Bounded n (fun l => ∀ p ∈ l, P p.1 p.2) (membersFound members fuel first found) := by
  induction fuel generalizing first found with
  | zero => exact .throw _
  | succ fuel ih =>
      refine (bounded_nextMember first).bind fun _ _ => ?_
      split
      · refine bounded_string.bind fun name _ => ?_
        split
        · next m hm =>
            have hmem : m ∈ members := List.mem_of_find?_eq_some hm
            have hname : m.name = name := by simpa using List.find?_some hm
            have hvalue := (h m hmem).value
            have hrest : Bounded n (fun l => ∀ p ∈ l, P p.1 p.2) (do
                expect ':'
                let v ← m.value
                membersFound members fuel false (found ++ [(name, v)])) := by
              refine (bounded_expect ':').bind fun _ _ => hvalue.bind fun v hv => ih false ?_
              refine List.forall_mem_append.2 ⟨hfound, fun p hp => ?_⟩
              rw [List.mem_singleton.1 hp, ← hname]
              exact hv
            split
            · exact .bind (.throw _ : Bounded n (fun _ => True) _) fun _ _ => hrest
            · exact hrest
        · exact (bounded_expect ':').bind fun _ _ => bounded_ignored.bind fun _ _ =>
            ih false hfound
      · exact .pure hfound

/-- What is looked up is in the list. -/
theorem mem_of_lookup {β : Type} {l : List (String × β)} {name : String} {b : β}
    (h : l.lookup name = some b) : (name, b) ∈ l := by
  obtain ⟨before, after, rfl, -⟩ := List.lookup_eq_some_iff.1 h
  exact List.mem_append_right _ List.mem_cons_self

theorem bounded_complete {found : List (String × Json)} (hfound : ∀ p ∈ found, P p.1 p.2)
    (h : ∀ m ∈ members, m.Bounded n (P m.name)) :
    Bounded n (fun l => l.map Prod.fst = members.map (·.name) ∧ ∀ p ∈ l, P p.1 p.2)
      (complete found members) := by
  induction members with
  | nil => exact .pure ⟨rfl, fun p hp => nomatch hp⟩
  | cons m rest ih =>
      obtain ⟨hm, hrest⟩ := List.forall_mem_cons.1 h
      unfold complete
      split
      · next v hv =>
          have hPv : P m.name v := by
            cases hlookup : found.lookup m.name with
            | none =>
                rw [hlookup] at hv
                exact hm.absent v hv
            | some w =>
                rw [hlookup] at hv
                cases hv
                exact hfound (m.name, v) (mem_of_lookup hlookup)
          refine (ih hrest).bind fun l hl => .pure ⟨?_, List.forall_mem_cons.2 ⟨hPv, hl.2⟩⟩
          rw [List.map_cons, List.map_cons, hl.1]
      · exact .throw _

theorem bounded_membersInList (h : ∀ m ∈ members, m.Bounded n (P m.name)) (first : Bool) :
    Bounded n (fun l => l.map Prod.fst = members.map (·.name) ∧ ∀ p ∈ l, P p.1 p.2)
      (membersInList members first) := by
  induction members generalizing first with
  | nil => exact .pure ⟨rfl, fun p hp => nomatch hp⟩
  | cons m rest ih =>
      obtain ⟨hm, hrest⟩ := List.forall_mem_cons.1 h
      refine bounded_peekToken?.bind fun _ _ => ?_
      split
      · split
        · next v hv =>
            refine (ih hrest first).bind fun l hl =>
              .pure ⟨?_, List.forall_mem_cons.2 ⟨hm.absentInList v hv, hl.2⟩⟩
            rw [List.map_cons, List.map_cons, hl.1]
        · exact .throw _
      · refine (bounded_nextItem first).bind fun _ _ => ?_
        split
        · refine hm.value.bind fun v hv => (ih hrest false).bind fun l hl =>
            .pure ⟨?_, List.forall_mem_cons.2 ⟨hv, hl.2⟩⟩
          rw [List.map_cons, List.map_cons, hl.1]
        · exact .throw _

/-- The values of a record satisfy the conditions of its members, in order. -/
def EachValue (members : List Member) (P : String → Json → Prop) (j : Json) : Prop :=
  ∀ values, j.values? = some values → ∀ (i : Nat) (m : Member) (v : Json),
    members[i]? = some m → values[i]? = some v → P m.name v

theorem eachValue_of_names {l : List (String × Json)}
    (hnames : l.map Prod.fst = members.map (·.name)) (h : ∀ p ∈ l, P p.1 p.2) :
    EachValue members P (.record l) := by
  intro values hvalues i m v hm hv
  cases hvalues
  rw [List.getElem?_map, Option.map_eq_some_iff] at hv
  obtain ⟨p, hp, rfl⟩ := hv
  have hname := congrArg (·[i]?) hnames
  simp only [List.getElem?_map, hp, hm, Option.map_some, Option.some.injEq] at hname
  rw [← hname]
  exact h p (List.mem_of_getElem? hp)

/-- Of a record, the value of every member is one that its reader returns, or that is taken for it
when it is absent. -/
theorem bounded_record (h : ∀ m ∈ members, m.Bounded n (P m.name)) :
    Bounded n (EachValue members P) (record members) := by
  refine bounded_peekToken?.bind fun _ _ => ?_
  split
  · refine bounded_advance.bind fun _ _ => bounded_get.bind fun left _ =>
      Bounded.bind (bounded_membersFound h _ true fun p hp => absurd hp List.not_mem_nil)
        fun found hfound => ?_
    exact (bounded_complete hfound h).bind fun l hl => (bounded_expect '}').bind fun _ _ =>
      .pure (eachValue_of_names hl.1 hl.2)
  · exact bounded_advance.bind fun _ _ => (bounded_membersInList h true).bind fun l hl =>
      (bounded_expect ']').bind fun _ _ => .pure (eachValue_of_names hl.1 hl.2)
  · exact bounded_otherKind

/-- Of a record, the value of one member is what its reader returns; the others keep to the
bound. -/
theorem bounded_record_member (name : String) {P : Json → Prop}
    (hkeep : ∀ m ∈ members, Bounded n (fun _ => True) m.value)
    (h : ∀ m ∈ members, m.name = name → m.Bounded n P) :
    Bounded n (EachValue members fun k v => k = name → P v) (record members) := by
  refine bounded_record fun m hm => ?_
  by_cases hname : m.name = name
  · have hP := h m hm hname
    exact ⟨hP.value.imp fun v hv _ => hv, fun v hv _ => hP.absent v hv,
      fun v hv _ => hP.absentInList v hv⟩
  · exact ⟨(hkeep m hm).imp fun v _ heq => absurd heq hname,
      fun v _ heq => absurd heq hname, fun v _ heq => absurd heq hname⟩

end Record

/-! ## maps and choices -/

theorem bounded_entries {value : Reader Json} (hvalue : Bounded n P value) (fuel : Nat)
    (first : Bool) :
    Bounded n (fun l => l.length < fuel ∧ ∀ p ∈ l, p.1.length ≤ n ∧ P p.2)
      (entries string value fuel first) := by
  induction fuel generalizing first with
  | zero => exact .throw _
  | succ fuel ih =>
      refine (bounded_nextMember first).bind fun _ _ => ?_
      split
      · refine bounded_string.bind fun k hk => (bounded_expect ':').bind fun _ _ =>
          hvalue.bind fun v hv => (ih false).bind fun rest hrest => .pure ⟨?_, ?_⟩
        · rw [List.length_cons]
          exact Nat.succ_lt_succ hrest.1
        · exact List.forall_mem_cons.2 ⟨⟨hk, hv⟩, hrest.2⟩
      · exact .pure ⟨Nat.succ_pos fuel, fun p hp => nomatch hp⟩

/-- A map from texts has at most as many entries as characters that it is read from, and no more
characters in any of its keys. -/
theorem bounded_textMap {value : Reader Json} (hvalue : Bounded n P value) :
    Bounded n (fun j => ∃ l, j = .record l ∧ l.length ≤ n ∧ ∀ p ∈ l, p.1.length ≤ n ∧ P p.2)
      (textMap value) := by
  unfold textMap mapWith
  refine bounded_peekToken?.bind fun _ _ => ?_
  split
  · refine bounded_advance.bind fun _ _ => bounded_get.bind fun left hleft =>
      (bounded_entries hvalue _ true).bind fun l hl => (bounded_expect '}').bind fun _ _ =>
        .pure ⟨l, rfl, ?_, hl.2⟩
    exact Nat.le_trans (Nat.le_of_lt_succ hl.1) hleft
  · exact bounded_otherKind

theorem bounded_choice {variants : List (String × Content)}
    (h : ∀ name reader, (name, .value reader) ∈ variants → Bounded n (fun _ => True) reader) :
    Bounded n (fun _ => True) (choice variants) := by
  have hclose (j : Json) : Bounded n (fun _ => True) (do
      let found ← (Pure.pure j : Reader Json)
      expect '}'
      return found) :=
    .bind (.pure .intro : Bounded n (fun _ => True) _) fun _ _ =>
      (bounded_expect '}').bind fun _ _ => .pure .intro
  refine bounded_peekToken?.bind fun _ _ => ?_
  split
  · refine bounded_string.bind fun name _ => ?_
    split
    · exact .pure .intro
    · exact .throw _
  · refine bounded_advance.bind fun _ _ => bounded_peekToken?.bind fun _ _ => ?_
    split
    · refine bounded_string.bind fun name _ => ?_
      split
      · next content hcontent =>
          refine (bounded_expect ':').bind fun _ _ => ?_
          split
          · exact bounded_null.bind fun _ _ => hclose _
          · next reader => exact (h name reader (mem_of_lookup hcontent)).bind fun _ _ => hclose _
      · exact .throw _
    · exact bounded_otherKind
  · exact .throw _

end Reader

/-! ## forms -/

section Forms

variable {α : Type} [Form α] {n : Nat} {P : α → Prop}

/-- Whatever value of a type is read from a text of at most `n` characters satisfies a condition,
and no more than `n` characters are left. -/
def Form.Bounded (n : Nat) (P : α → Prop) : Prop :=
  Reader.Bounded n (fun j => ∀ a : α, ofJson? j = some a → P a) (Form.reader α)

namespace Form.Bounded

/-- A value at the front of bytes. -/
theorem parseFront (h : Form.Bounded n P) {b : Bytes} (hb : Reader.stray.length * b.length ≤ n)
    {a : α} (hparse : Json.parseFront b = .ok a) : P a := by
  have hread : Reader.Bounded n P (Form.read (α := α)) := by
    refine Reader.Bounded.bind h fun j hj => ?_
    split
    · next a ha => exact .pure (hj a ha)
    · exact .throw _
  have hlength : (Reader.characters b).length ≤ n := by
    rw [Reader.characters]
    exact Nat.le_trans (Utf8.length_charactersFrom_le (List.cons_ne_nil _ _) 0 b) hb
  unfold Json.parseFront at hparse
  cases hrun : (Form.read (α := α)).run (Reader.characters b) with
  | error fault => simp [hrun, Bind.bind, Except.bind] at hparse
  | ok result =>
      obtain ⟨a', rest⟩ := result
      simp only [hrun] at hparse
      cases hparse
      exact (hread _ _ _ hlength hrun).2

/-- The reader of a form keeps to the bound. -/
theorem keeps (h : Form.Bounded n P) : Reader.Bounded n (fun _ => True) (Form.reader α) :=
  Reader.Bounded.trivial h

/-- A member that has to be there. -/
theorem member (h : Form.Bounded n P) (habsent : Form.absent α = none) (name : String) :
    (Json.member α name).Bounded n fun v => ∀ a : α, ofJson? v = some a → P a where
  value := h
  absent v hv := by
    rw [Json.member, habsent] at hv
    cases hv
  absentInList v hv := nomatch hv

end Form.Bounded

/-- What the items of a list are read as. -/
theorem length_and_mem_of_mapM {α β : Type} {f : α → Option β} {l : List α} {l' : List β}
    (h : l.mapM f = some l') : l'.length = l.length ∧ ∀ b ∈ l', ∃ a ∈ l, f a = some b := by
  induction l generalizing l' with
  | nil =>
      cases h
      exact ⟨rfl, fun b hb => nomatch hb⟩
  | cons a l ih =>
      simp only [List.mapM_cons, Option.bind_eq_bind, Option.bind_eq_some_iff] at h
      obtain ⟨b, hb, rest, hrest, heq⟩ := h
      cases heq
      obtain ⟨hlength, hmem⟩ := ih hrest
      refine ⟨by rw [List.length_cons, List.length_cons, hlength], fun b' hb' => ?_⟩
      rcases List.mem_cons.1 hb' with rfl | hb'
      · exact ⟨a, List.mem_cons_self, hb⟩
      · obtain ⟨a', ha', heq⟩ := hmem b' hb'
        exact ⟨a', List.mem_cons_of_mem a ha', heq⟩

/-- A text has at most the characters that it is read from. -/
theorem bounded_string : Form.Bounded n fun s : String => s.length ≤ n := by
  refine Reader.bounded_text.imp fun j hj s hs => ?_
  obtain ⟨t, rfl, ht⟩ := hj
  cases hs
  exact ht

/-- A list has at most as many items as characters that it is read from. -/
theorem bounded_list (h : Form.Bounded n P) :
    Form.Bounded n fun l : List α => l.length ≤ n ∧ ∀ a ∈ l, P a := by
  refine (Reader.bounded_list h).imp fun j hj l hl => ?_
  obtain ⟨items, rfl, hcount, hitems⟩ := hj
  obtain ⟨hlength, hmem⟩ := length_and_mem_of_mapM hl
  refine ⟨hlength ▸ hcount, fun a ha => ?_⟩
  obtain ⟨i, hi, hia⟩ := hmem a ha
  exact hitems i hi a hia

/-- A map has at most as many entries as characters that it is read from. -/
theorem bounded_textMap (h : Form.Bounded n P) :
    Form.Bounded n fun m : SortedMap String α =>
      m.entries.length ≤ n ∧ ∀ e ∈ m.entries, e.1.length ≤ n ∧ P e.2 := by
  refine (Reader.bounded_textMap h).imp fun j hj m hm => ?_
  obtain ⟨members, rfl, hcount, hmembers⟩ := hj
  obtain ⟨l, hl, rfl⟩ := Option.map_eq_some_iff.1 hm
  obtain ⟨hlength, hmem⟩ := length_and_mem_of_mapM hl
  refine ⟨Nat.le_trans (SortedMap.length_ofList_le l) (hlength ▸ hcount), fun e he => ?_⟩
  obtain ⟨p, hp, hpe⟩ := hmem e (SortedMap.mem_of_mem_ofList he)
  obtain ⟨hk, hv⟩ := hmembers p hp
  simp only [Option.bind_eq_bind, Option.bind_eq_some_iff] at hpe
  obtain ⟨k, hk', v, hv', heq⟩ := hpe
  cases hk'
  cases heq
  exact ⟨hk, hv v hv'⟩

end Forms

end ControlPlane.Json
