import ControlPlane.Proofs.Http.Percent
import ControlPlane.Url.Path
import Mathlib.Data.List.Flatten

/-!
# ControlPlane.Proofs.Url.Path

The paths that texts are read as.  The names of a path are parts of the text, encoded, and nothing
that was in the text is added to them (`sublist_of_mem_splitAt`, `walk_sublist`); a path of names
can be told from its text (`splitAt_text`).  Encoding leaves what a name stands for, so no name that
stands for itself is taken for a step unless it is one.
-/

namespace ControlPlane.Url

/-! ## parts of a text -/

theorem splitAt_ne_nil (separator : Char) (cs : List Char) : splitAt separator cs ≠ [] := by
  cases cs with
  | nil => exact List.cons_ne_nil _ _
  | cons c rest =>
      rw [splitAt]
      cases splitAt separator rest with
      | nil => exact List.cons_ne_nil _ _
      | cons part parts =>
          simp only
          split <;> exact List.cons_ne_nil _ _

theorem splitAt_cons_of_ne {separator c : Char} (h : c ≠ separator) {cs part : List Char}
    {parts : List (List Char)} (hcs : splitAt separator cs = part :: parts) :
    splitAt separator (c :: cs) = (c :: part) :: parts := by
  simp only [splitAt, hcs, if_neg h]

theorem splitAt_cons_self (separator : Char) (cs : List Char) :
    splitAt separator (separator :: cs) = [] :: splitAt separator cs := by
  obtain ⟨part, parts, hcs⟩ := List.exists_cons_of_ne_nil (splitAt_ne_nil separator cs)
  simp only [splitAt, hcs, if_true]

/-- What is in front of the first separator is the first part. -/
theorem splitAt_append {separator : Char} {cs : List Char} (h : separator ∉ cs)
    (rest : List Char) :
    splitAt separator (cs ++ separator :: rest) = cs :: splitAt separator rest := by
  induction cs with
  | nil => exact splitAt_cons_self separator rest
  | cons c cs ih =>
      rw [List.mem_cons, not_or] at h
      exact splitAt_cons_of_ne (Ne.symm h.1) (ih h.2)

/-- A text without separators is one part. -/
theorem splitAt_of_not_mem {separator : Char} {cs : List Char} (h : separator ∉ cs) :
    splitAt separator cs = [cs] := by
  induction cs with
  | nil => rfl
  | cons c cs ih =>
      rw [List.mem_cons, not_or] at h
      exact splitAt_cons_of_ne (Ne.symm h.1) (ih h.2)

/-- A part of a text, some characters of which are taken for separators, is left of the text and
holds none of those. -/
theorem sublist_of_mem_splitAt {separator : Char} {f : Char → Char}
    (hf : ∀ c, f c ≠ separator → f c = c) {cs part : List Char}
    (h : part ∈ splitAt separator (cs.map f)) :
    part.Sublist cs ∧ ∀ c ∈ part, f c ≠ separator := by
  induction cs generalizing part with
  | nil =>
      rw [List.map_nil, splitAt, List.mem_singleton] at h
      subst h
      exact ⟨.slnil, fun c hc => absurd hc List.not_mem_nil⟩
  | cons c cs ih =>
      obtain ⟨first, parts, hcs⟩ :=
        List.exists_cons_of_ne_nil (splitAt_ne_nil separator (cs.map f))
      rw [hcs] at ih
      rw [List.map_cons] at h
      by_cases hc : f c = separator
      · rw [hc, splitAt_cons_self, List.mem_cons, hcs] at h
        rcases h with rfl | h
        · exact ⟨List.nil_sublist _, fun c hc => absurd hc List.not_mem_nil⟩
        · obtain ⟨hsub, hchars⟩ := ih h
          exact ⟨hsub.cons c, hchars⟩
      · rw [splitAt_cons_of_ne hc hcs, List.mem_cons] at h
        rcases h with rfl | h
        · obtain ⟨hsub, hchars⟩ := ih List.mem_cons_self
          rw [hf c hc]
          exact ⟨hsub.cons_cons c, List.forall_mem_cons.2 ⟨hc, hchars⟩⟩
        · obtain ⟨hsub, hchars⟩ := ih (List.mem_cons_of_mem _ h)
          exact ⟨hsub.cons c, hchars⟩

/-- What is left of a text has fewer bytes, unless it is all of it. -/
theorem eq_of_sublist_of_length_le {part cs : List Char} (h : part.Sublist cs)
    (hle : (Utf8.encode (String.ofList cs)).length
      ≤ (Utf8.encode (String.ofList part)).length) : part = cs := by
  simp only [Utf8.encode_eq_flatMap, String.toList_ofList] at hle
  have hlen {x y : List Char} (hxy : x.Sublist y) :
      (x.flatMap String.utf8EncodeChar).length ≤ (y.flatMap String.utf8EncodeChar).length :=
    (hxy.flatMap _).length_le
  induction h with
  | slnil => rfl
  | cons c hsub ih =>
      have hpos : 0 < (String.utf8EncodeChar c).length :=
        List.length_pos_iff.2 String.utf8EncodeChar_ne_nil
      have := hlen hsub
      rw [List.flatMap_cons, List.length_append] at hle
      omega
  | cons_cons c hsub ih =>
      rw [List.flatMap_cons, List.flatMap_cons, List.length_append, List.length_append] at hle
      rw [ih (by omega)]

namespace Path

/-! ## names and their text -/

/-- Names without slashes can be told from the text of their path. -/
theorem splitAt_text {names : List (List Char)} (h : ∀ name ∈ names, '/' ∉ name) :
    splitAt '/' (names.flatMap ('/' :: ·)) = [] :: names := by
  induction names with
  | nil => rfl
  | cons name names ih =>
      obtain ⟨hname, hnames⟩ := List.forall_mem_cons.1 h
      rw [List.flatMap_cons, List.cons_append, splitAt_cons_self]
      have := ih hnames
      cases names with
      | nil =>
          rw [List.flatMap_nil, List.append_nil, splitAt_of_not_mem hname]
      | cons next names =>
          rw [List.flatMap_cons, List.cons_append] at this ⊢
          rw [splitAt_append hname]
          rw [splitAt_cons_self] at this
          rw [(List.cons.inj this).2]

/-! ## encoded names -/

/-- The characters that encoding brings in: percent signs and digits. -/
theorem eq_or_isAlphanum_of_mem_encodeByte {b : UInt8} {c : Char} (h : c ∈ Percent.encodeByte b) :
    c = '%' ∨ c.isAlphanum = true := by
  have hdigit (n : Nat) (hn : n < 16) : (Hexadecimal.upperDigitChar n).isAlphanum = true := by
    have hall : ∀ n < 16, (Hexadecimal.upperDigitChar n).isAlphanum = true := by decide
    exact hall n hn
  have hb := b.toNat_lt
  simp only [Percent.encodeByte, List.mem_cons, List.not_mem_nil, or_false] at h
  rcases h with rfl | rfl | rfl
  · exact .inl rfl
  · exact .inr (hdigit _ (by omega))
  · exact .inr (hdigit _ (by omega))

/-- A character of an encoded name that is neither a percent sign nor a letter or digit was in the
name, and is one that is kept. -/
theorem mem_of_mem_encode {cs : List Char} {c : Char} (h : c ∈ Percent.encode keeps cs)
    (hpercent : c ≠ '%') (hletter : c.isAlphanum = false) : c ∈ cs ∧ keeps c = true := by
  rw [Percent.encode, List.mem_flatMap] at h
  obtain ⟨d, hd, hc⟩ := h
  split at hc
  · next hkeep =>
      rw [List.mem_singleton] at hc
      subst hc
      exact ⟨hd, hkeep⟩
  · obtain ⟨b, -, hb⟩ := List.mem_flatMap.1 hc
    rcases eq_or_isAlphanum_of_mem_encodeByte hb with rfl | hc
    · exact absurd rfl hpercent
    · rw [hletter] at hc
      cases hc

/-- What an encoded name stands for is what the name stands for. -/
theorem decodeText?_encode_keeps (cs : List Char) :
    Percent.decodeText? (Percent.encode keeps cs) = Percent.decodeText? cs := by
  refine Percent.decodeText?_encode (fun c hc => ?_) (by decide) (fun c hc => ?_) cs
  · simp only [keeps, Bool.and_eq_true, decide_eq_true_eq] at hc
    omega
  · have hlt : c.toNat < 128 := by
      simp only [Hexadecimal.digitValue?] at hc
      split at hc
      · next h => exact Nat.lt_of_le_of_lt (m := '9'.toNat) h.2 (by decide)
      · split at hc
        · next h => exact Nat.lt_of_le_of_lt (m := 'f'.toNat) h.2 (by decide)
        · split at hc
          · next h => exact Nat.lt_of_le_of_lt (m := 'F'.toNat) h.2 (by decide)
          · cases hc
    have hall : ∀ n < 128, (Hexadecimal.digitValue? (Char.ofNat n)).isSome = true →
        keeps (Char.ofNat n) = true := by decide +kernel
    have := hall c.toNat hlt
    rw [Char.ofNat_toNat] at this
    exact this hc

/-! ## steps -/

/-- A name that begins with a dot, encoded or not, stands for one that begins with a dot. -/
theorem decode_of_withDots_eq_cons {name rest : List Char} (h : withDots name = '.' :: rest) :
    ∃ behind, withDots behind = rest
      ∧ Percent.decode (Utf8.encode (String.ofList name))
        = 46 :: Percent.decode (Utf8.encode (String.ofList behind)) := by
  have hencoded (e : Char) (he : e.toNat < 128)
      (hvalue : Hexadecimal.digitValue? (Char.ofNat (UInt8.ofNat e.toNat).toNat) = some 14)
      (behind : List Char) :
      Percent.decode (Utf8.encode (String.ofList ('%' :: '2' :: e :: behind)))
        = 46 :: Percent.decode (Utf8.encode (String.ofList behind)) := by
    rw [Percent.utf8_cons_of_lt (by decide), Percent.utf8_cons_of_lt (by decide),
      Percent.utf8_cons_of_lt he]
    exact Percent.decode_escape (h := 2) (by decide) hvalue _
  unfold withDots at h
  split at h
  · next behind =>
      exact ⟨behind, (List.cons.inj h).2, hencoded 'e' (by decide) (by decide) behind⟩
  · next behind =>
      exact ⟨behind, (List.cons.inj h).2, hencoded 'E' (by decide) (by decide) behind⟩
  · next behind _ _ =>
      obtain ⟨rfl, hrest⟩ := List.cons.inj h
      refine ⟨behind, hrest, ?_⟩
      rw [Percent.utf8_cons_of_lt (by decide)]
      exact Percent.decode_cons_of_ne (by decide) _
  · cases h

theorem eq_nil_of_withDots_eq_nil {name : List Char} (h : withDots name = []) : name = [] := by
  unfold withDots at h
  split at h <;> first | rfl | cases h

/-- An encoded name that stays stands for a dot. -/
theorem eq_of_stays_encode {cs : List Char} {s : String}
    (h : stays (Percent.encode keeps cs) = true) (hs : Percent.decodeText? cs = some s) :
    s = "." := by
  obtain ⟨behind, hbehind, hdecode⟩ := decode_of_withDots_eq_cons (eq_of_beq h)
  rw [eq_nil_of_withDots_eq_nil hbehind] at hdecode
  rw [← decodeText?_encode_keeps, Percent.decodeText?, hdecode] at hs
  exact (Option.some.inj (hs.symm.trans (Utf8.decode?_encode ".")))

/-- An encoded name that goes up stands for two dots. -/
theorem eq_of_goesUp_encode {cs : List Char} {s : String}
    (h : goesUp (Percent.encode keeps cs) = true) (hs : Percent.decodeText? cs = some s) :
    s = ".." := by
  obtain ⟨behind, hbehind, hdecode⟩ := decode_of_withDots_eq_cons (eq_of_beq h)
  obtain ⟨behind', hbehind', hdecode'⟩ := decode_of_withDots_eq_cons hbehind
  rw [hdecode', eq_nil_of_withDots_eq_nil hbehind'] at hdecode
  rw [← decodeText?_encode_keeps, Percent.decodeText?, hdecode] at hs
  exact (Option.some.inj (hs.symm.trans (Utf8.decode?_encode "..")))

/-! ## walking -/

theorem up_sublist (names : List (List Char)) : (up names).Sublist names := by
  rw [up]
  split
  · exact .refl _
  · exact List.dropLast_sublist _

/-- The names of a path are among those that were walked; behind a step there is an empty one. -/
theorem walk_sublist (done names : List (List Char)) :
    (walk done names).Sublist (done ++ names)
      ∨ ∃ front, front.Sublist (done ++ names) ∧ walk done names = front ++ [[]] := by
  -- Whatever a step leaves of the names before it is left of all of them.
  have hskip {done left : List (List Char)} (h : left.Sublist done) (name : List Char)
      (rest : List (List Char)) : (left ++ rest).Sublist (done ++ name :: rest) :=
    h.append (List.sublist_cons_self name rest)
  fun_induction walk done names with
  | case1 done => exact .inl (by simp)
  | case2 done last hup =>
      exact .inr ⟨_, (up_sublist done).trans (List.sublist_append_left done _), rfl⟩
  | case3 done last hup hstays => exact .inr ⟨_, List.sublist_append_left done _, rfl⟩
  | case4 done last hup hstays => exact .inl (.refl _)
  | case5 done name rest hrest hup ih =>
      have hleft := hskip (up_sublist done) name rest
      refine ih.imp (fun h => h.trans hleft) fun h => ?_
      obtain ⟨front, hfront, heq⟩ := h
      exact ⟨front, hfront.trans hleft, heq⟩
  | case6 done name rest hrest hup hstays ih =>
      have hleft := hskip (List.Sublist.refl done) name rest
      refine ih.imp (fun h => h.trans hleft) fun h => ?_
      obtain ⟨front, hfront, heq⟩ := h
      exact ⟨front, hfront.trans hleft, heq⟩
  | case7 done name rest hrest hup hstays ih => simpa using ih

/-- A name of a path is one of those that were walked, or empty. -/
theorem mem_or_eq_nil_of_mem_walk {done names : List (List Char)} {name : List Char}
    (h : name ∈ walk done names) : name ∈ done ++ names ∨ name = [] := by
  rcases walk_sublist done names with hsub | ⟨front, hsub, heq⟩
  · exact .inl (hsub.subset h)
  · rw [heq, List.mem_append, List.mem_singleton] at h
    exact h.imp_left fun h => hsub.subset h

end Path

end ControlPlane.Url
