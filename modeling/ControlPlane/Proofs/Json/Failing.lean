import ControlPlane.Proofs.Json.Lawful

/-!
# ControlPlane.Proofs.Json.Failing

Values that are not read back.  A reader *fails* on a JSON if it takes the compact text of it off
the front of no text.  A record is not read if one of its members is not (`Fails.record`), and a
choice is not if its content is not (`Fails.choice_value`).
-/

namespace ControlPlane.Json

open Reader

/-- A reader fails on a JSON if it finds a fault in every text that begins with the compact text of
it. -/
def Fails (r : Reader Json) (j : Json) : Prop :=
  ∀ rest, ∃ fault, r (j.compact ++ rest) = .error fault

/-! ## running readers -/

namespace Reader

variable {α β : Type}

/-- Nothing is read behind a fault. -/
theorem exists_bind_eq_error {r : Reader α} {f : α → Reader β} {cs : List Char}
    (h : ∃ fault, r cs = .error fault) : ∃ fault, (r >>= f) cs = .error fault := by
  obtain ⟨fault, h⟩ := h
  exact ⟨fault, by simp only [bind, StateT.bind, h, Except.bind]⟩

end Reader

/-! ## members -/

/-- A record is not read behind a member that is not. -/
theorem exists_membersFound_eq_error {members : List Reader.Member} {m : Reader.Member} {v : Json}
    (hm : members.find? (·.name == m.name) = some m) (hv : Fails m.value v)
    {found : List (String × Json)} (hnew : m.name ∉ found.map Prod.fst) {first : Bool}
    {cs rest : List Char}
    (hnext : nextMember first cs = .ok (true, memberText (m.name, v) ++ rest)) (fuel : Nat) :
    ∃ fault, membersFound members (fuel + 1) first found cs = .error fault := by
  have hlookup : found.lookup m.name = none := List.lookup_eq_none_iff.2 fun p hp => by
    have hne : m.name ≠ p.1 := fun heq => hnew (heq ▸ List.mem_map_of_mem hp)
    simpa using hne
  rw [memberText, List.append_assoc, List.cons_append] at hnext
  rw [membersFound, bind_of_ok hnext, if_pos rfl, bind_of_ok (string_quote _ _)]
  simp only [hm, hlookup, Option.isSome_none, Bool.false_eq_true, if_false]
  show ∃ fault, (expect ':' >>= _) _ = _
  rw [bind_of_ok (expect_cons (by decide) _)]
  exact exists_bind_eq_error (hv rest)

/-- Members that are read, in front of one that is not, are of no use. -/
theorem exists_membersFound_pairs_eq_error {members : List Reader.Member}
    (hnames : (members.map (·.name)).Nodup) {l : List (Reader.Member × Json)}
    (hl : ∀ p ∈ l, p.1 ∈ members ∧ Reads p.1.value p.2) {m : Reader.Member} {v : Json}
    (hm : m ∈ members) (hv : Fails m.value v) (hnew : ((pairs l).map Prod.fst ++ [m.name]).Nodup)
    (after : List (String × Json)) {fuel : Nat} (hfuel : l.length < fuel) (rest : List Char) :
    ∃ fault, membersFound members fuel true []
      (compactMembers (pairs l ++ (m.name, v) :: after) ++ rest) = .error fault := by
  obtain ⟨hfresh, hname⟩ : ((pairs l).map Prod.fst).Nodup ∧ m.name ∉ (pairs l).map Prod.fst := by
    rw [List.nodup_append] at hnew
    exact ⟨hnew.1, fun h => hnew.2.2 _ h _ List.mem_cons_self rfl⟩
  cases l with
  | nil =>
      obtain ⟨fuel, rfl⟩ := Nat.exists_eq_add_one.2 hfuel
      rw [pairs_nil, List.nil_append, compactMembers_cons, List.append_assoc]
      exact exists_membersFound_eq_error (find?_name hnames hm) hv List.not_mem_nil
        (nextMember_first _ _) fuel
  | cons p l =>
      obtain ⟨hmem, hread⟩ := hl p List.mem_cons_self
      obtain ⟨fuel, rfl⟩ := Nat.exists_eq_add_of_lt hfuel
      have htext : compactMembers (pairs (p :: l) ++ (m.name, v) :: after) ++ rest
          = memberText (p.1.name, p.2) ++ (behindCommas memberText (pairs l)
            ++ ',' :: (memberText (m.name, v) ++ (behindCommas memberText after ++ rest))) := by
        rw [pairs_cons, List.cons_append, compactMembers_cons]
        simp [behindCommas]
      have hcount : (p :: l).length + fuel + 1 = fuel + 1 + l.length + 1 := by
        rw [List.length_cons]
        omega
      rw [htext, hcount, membersFound_of_next (find?_name hnames hmem) hread List.not_mem_nil
          (nextMember_first _ _) (closed_behindCommas _ (by decide) _),
        membersFound_behindCommas hnames
          (forall₂_pairs fun p hp => (hl p (List.mem_cons_of_mem _ hp)).2)
          (fun p hp => (hl p (List.mem_cons_of_mem _ hp)).1) hfresh (by decide)]
      exact exists_membersFound_eq_error (find?_name hnames hm) hv hname (nextMember_comma _ _) fuel

/-! ## records and choices -/

/-- Members of which one is not read, and those in front of it are. -/
inductive FailsAmong : List Reader.Member → List Json → Prop
  | head {m : Reader.Member} {v : Json} {members : List Reader.Member} {values : List Json}
    (h : Fails m.value v) : FailsAmong (m :: members) (v :: values)
  | tail {m : Reader.Member} {v : Json} {members : List Reader.Member} {values : List Json}
    (hm : Reads m.value v) (h : FailsAmong members values) :
    FailsAmong (m :: members) (v :: values)

theorem FailsAmong.exists_append {members : List Reader.Member} {values : List Json}
    (h : FailsAmong members values) :
    ∃ before m after front v others, members = before ++ m :: after ∧
      values = front ++ v :: others ∧ List.Forall₂ (fun m v => Reads m.value v) before front ∧
      Fails m.value v := by
  induction h with
  | head h => exact ⟨[], _, _, [], _, _, rfl, rfl, .nil, h⟩
  | tail hm h ih =>
      obtain ⟨before, m, after, front, v, others, rfl, rfl, hfront, hv⟩ := ih
      exact ⟨_ :: before, m, after, _ :: front, v, others, rfl, rfl, .cons hm hfront, hv⟩

/-- **Records** are not read if one member is not, and those in front of it are. -/
theorem Fails.record {members : List Reader.Member} {values : List Json}
    (hnames : (members.map (·.name)).Nodup) (h : FailsAmong members values) :
    Fails (Reader.record members) (named members values) := fun rest => by
  obtain ⟨before, m, after, front, v, others, rfl, rfl, hfront, hv⟩ := h.exists_append
  obtain ⟨hlen, hzip⟩ := List.forall₂_iff_zip.1 hfront
  have hbefore : (before.map (·.name)).zip front = pairs (before.zip front) :=
    List.zip_map_left ..
  have hpairs : ((before ++ m :: after).map (·.name)).zip (front ++ v :: others)
      = pairs (before.zip front) ++ (m.name, v) :: (after.map (·.name)).zip others := by
    rw [List.map_append, List.zip_append (by simpa using hlen), List.map_cons, List.zip_cons_cons,
      hbefore]
  have hl : ∀ p ∈ before.zip front, p.1 ∈ before ++ m :: after ∧ Reads p.1.value p.2 :=
    fun p hp => ⟨List.mem_append_left _ (List.of_mem_zip hp).1, hzip hp⟩
  have hnew : ((pairs (before.zip front)).map Prod.fst ++ [m.name]).Nodup := by
    rw [← hbefore, List.map_fst_zip (by simp [hlen])]
    refine hnames.sublist ?_
    rw [List.map_append, List.map_cons]
    exact List.Sublist.append_left (List.singleton_sublist.2 List.mem_cons_self) _
  have htext : (named (before ++ m :: after) (front ++ v :: others)).compact ++ rest
      = '{' :: (compactMembers (pairs (before.zip front)
        ++ (m.name, v) :: (after.map (·.name)).zip others) ++ '}' :: rest) := by
    rw [named, hpairs]
    simp [compact]
  rw [htext, Reader.record, bind_of_ok (peekToken?_cons (by decide) _)]
  show ∃ fault, (advance >>= _) _ = _
  rw [bind_of_ok (advance_cons '{' _), bind_of_ok (get_eq _)]
  refine exists_bind_eq_error (exists_membersFound_pairs_eq_error hnames hl
    (List.mem_append_right _ List.mem_cons_self) hv hnew _ ?_ _)
  have hmembers := length_le_compactMembers (pairs (before.zip front)
    ++ (m.name, v) :: (after.map (·.name)).zip others)
  simp only [pairs, List.length_append, List.length_map, List.length_cons] at hmembers ⊢
  omega

/-- **Choices** are not read if the content of the variant is not. -/
theorem Fails.choice_value {variants : List (String × Content)} {name : String}
    {value : Reader Json} {j : Json} (h : variants.lookup name = some (.value value))
    (hj : Fails value j) : Fails (Reader.choice variants) (.record [(name, j)]) := fun rest => by
  have htext : compact (.record [(name, j)]) ++ rest
      = '{' :: (quote name ++ ':' :: (j.compact ++ '}' :: rest)) := by
    simp [compact, compactMembers]
  have hquote : quote name ++ ':' :: (j.compact ++ '}' :: rest)
      = '"' :: (name.toList.flatMap escapeChar ++ ['"'] ++ ':' :: (j.compact ++ '}' :: rest)) := rfl
  have hcolon := expect_cons (c := ':') (by decide) (j.compact ++ '}' :: rest)
  rw [htext, Reader.choice, bind_of_ok (peekToken?_cons (by decide) _)]
  show ∃ fault, (advance >>= _) _ = _
  rw [bind_of_ok (advance_cons '{' _), hquote, bind_of_ok (peekToken?_cons (by decide) _),
    if_pos rfl, ← hquote, bind_of_ok (string_quote name _)]
  simp only [h]
  rw [bind_of_ok hcolon]
  exact exists_bind_eq_error (hj _)

/-- What may be absent is not read if it is not, and does not begin like nothing does. -/
theorem Fails.optional {value : Reader Json} {j : Json} (h : Fails value j) {c : Char}
    {cs : List Char} (htext : j.compact = c :: cs) (hc : isBlank c = false) (hne : c ≠ 'n') :
    Fails (Reader.optional value) j := fun rest => by
  have hfails := h rest
  rw [htext, List.cons_append] at hfails ⊢
  rw [Reader.optional, bind_of_ok (peekToken?_cons hc _), if_neg (by simpa using hne)]
  exact hfails

/-- A value on which the reader fails is not what its compact text is parsed to. -/
theorem Fails.exists_parse_eq_error {α : Type} [Form α] {a : α}
    (h : Fails (Form.reader α) (toJson a)) : ∃ fault, parse (α := α) (write a) = .error fault := by
  obtain ⟨fault, hread⟩ := h []
  rw [List.append_nil] at hread
  refine ⟨fault, ?_⟩
  have hrun : (Form.read (α := α)).run (write a).toList = .error fault := by
    rw [write, render, String.toList_ofList]
    show (Form.reader α >>= _) _ = _
    simp only [bind, StateT.bind, hread, Except.bind]
  rw [parse, parseChars, hrun]
  rfl

end ControlPlane.Json
