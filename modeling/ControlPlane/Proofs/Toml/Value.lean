import ControlPlane.Proofs.Json.Text
import ControlPlane.Proofs.Toml.Text
import ControlPlane.Toml.Document

/-!
# ControlPlane.Proofs.Toml.Value

The values that settings are written with (`Denotes`): strings in any form, whole numbers in decimal
digits that fit 64 bits with a sign, truth values, and the array without items.  Digits could be the
beginning of a date, of a time or of a float, which are tried first; at the end of a line they are
none of these.
-/

namespace ControlPlane.Toml

namespace Reader

/-! ## digits at the end of a line -/

theorem ne_of_isDigit {c d : Char} (hc : Decimal.isDigit c = true)
    (hd : Decimal.isDigit d = false) : c ≠ d := by
  rintro rfl
  rw [hd] at hc
  cases hc

section Digits

variable {ds : List Char} (hds : ∀ c ∈ ds, Decimal.isDigit c = true) (rest : List Char)
include hds

/-- The first character of a line of digits. -/
theorem head_digits : ∃ c cs, ds ++ '\n' :: rest = c :: cs
    ∧ (Decimal.isDigit c = true ∨ c = '\n') := by
  cases ds with
  | nil => exact ⟨'\n', rest, rfl, .inr rfl⟩
  | cons d ds => exact ⟨d, _, rfl, .inl (hds d List.mem_cons_self)⟩

/-- Nothing but digits stands there. -/
theorem one_digits {p : Char → Bool}
    (hp : ∀ c, Decimal.isDigit c = true ∨ c = '\n' → p c = false) :
    one p (ds ++ '\n' :: rest) = none := by
  obtain ⟨c, cs, htext, hc⟩ := head_digits hds rest
  rw [htext, one_of_neg (hp c hc)]

theorem word_digits {w : String} {d : Char} {w' : List Char} (hw : w.toList = d :: w')
    (hd : Decimal.isDigit d = false ∧ d ≠ '\n') : word w (ds ++ '\n' :: rest) = none := by
  obtain ⟨c, cs, htext, hc⟩ := head_digits hds rest
  refine word_of_not_front fun h => ?_
  rw [hw, htext] at h
  obtain ⟨rfl, -⟩ := List.cons_prefix_cons.1 h
  exact hc.elim (fun hc => ne_of_isDigit hc hd.1 rfl) hd.2

/-- Digits that are taken in front leave digits. -/
theorem fixedDigits_digits {n m : Nat} {cs : List Char}
    (h : fixedDigits n (ds ++ '\n' :: rest) = some (m, cs)) :
    ∃ ds', (∀ c ∈ ds', Decimal.isDigit c = true) ∧ cs = ds' ++ '\n' :: rest := by
  rw [fixedDigits, bind_of_some (get_eq _)] at h
  split at h
  · next hall =>
    have hle : n ≤ ds.length := by
      rcases Nat.lt_or_ge ds.length n with hlt | hge
      · have hmem : '\n' ∈ (ds ++ '\n' :: rest).take n := by
          obtain ⟨k, hk⟩ := Nat.exists_eq_add_of_lt hlt
          rw [hk, List.take_append, Nat.add_assoc, Nat.add_sub_cancel_left]
          simp
        exact absurd (List.all_eq_true.1 hall.2 _ hmem) (by decide)
      · exact hge
    refine ⟨ds.drop n, fun c hc => hds c (List.mem_of_mem_drop hc), ?_⟩
    cases h
    rw [List.drop_append_of_le_length hle]
  · cases h

theorem twoDigits_digits {least greatest m : Nat} {cs : List Char}
    (h : twoDigits least greatest (ds ++ '\n' :: rest) = some (m, cs)) :
    ∃ ds', (∀ c ∈ ds', Decimal.isDigit c = true) ∧ cs = ds' ++ '\n' :: rest := by
  rw [twoDigits] at h
  cases hfixed : fixedDigits 2 (ds ++ '\n' :: rest) with
  | none =>
      rw [bind_of_none hfixed] at h
      cases h
  | some r =>
      rw [bind_of_some hfixed] at h
      split at h
      · cases h
        exact fixedDigits_digits hds rest hfixed
      · cases h

/-- Digits alone are no time of the day. -/
theorem timeOfDay_digits : timeOfDay (ds ++ '\n' :: rest) = none := by
  rw [timeOfDay]
  cases hhours : twoDigits 0 23 (ds ++ '\n' :: rest) with
  | none => rw [bind_of_none hhours]
  | some r =>
      obtain ⟨ds', hds', hr⟩ := twoDigits_digits hds rest hhours
      rw [bind_of_some hhours, hr, bind_of_none (word_digits hds' rest rfl (by decide))]

/-- Digits alone are no date. -/
theorem date_digits : date (ds ++ '\n' :: rest) = none := by
  rw [date]
  cases hyear : fixedDigits 4 (ds ++ '\n' :: rest) with
  | none => rw [bind_of_none hyear]
  | some r =>
      obtain ⟨ds', hds', hr⟩ := fixedDigits_digits hds rest hyear
      rw [bind_of_some hyear, hr, bind_of_none (word_digits hds' rest rfl (by decide))]

theorem time_digits : time (ds ++ '\n' :: rest) = none := by
  rw [time, bind_of_some (get_eq _), bind_of_none]
  rw [orElse_of_none (bind_of_none (date_digits hds rest))]
  exact timeOfDay_digits hds rest

/-! ## numbers -/

/-- Digits have no sign. -/
theorem sign_digits : sign (ds ++ '\n' :: rest) = some (false, ds ++ '\n' :: rest) := by
  have hnone : one (fun c => c == '+' || c == '-') (ds ++ '\n' :: rest) = none := by
    refine one_digits hds rest fun c hc => ?_
    rcases hc with hc | rfl
    · have hplus : c ≠ '+' := ne_of_isDigit hc (by decide)
      have hminus : c ≠ '-' := ne_of_isDigit hc (by decide)
      simp [hplus, hminus]
    · decide
  rw [sign, bind_of_some (optional_of_none hnone)]
  rfl

theorem moreDigits_digits {fuel : Nat} (h : ds.length ≤ fuel) :
    moreDigits Decimal.isDigit fuel (ds ++ '\n' :: rest) = some (ds, '\n' :: rest) := by
  induction ds generalizing fuel with
  | nil =>
      cases fuel with
      | zero => rfl
      | succ fuel => rfl
  | cons d ds ih =>
      obtain ⟨fuel, rfl⟩ := Nat.exists_eq_add_one.2 (Nat.zero_lt_of_lt h)
      obtain ⟨hd, hds⟩ := List.forall_mem_cons.1 hds
      rw [List.cons_append, moreDigits,
        bind_of_some (optional_of_some (orElse_of_some (one_of_pos hd _)))]
      show (moreDigits Decimal.isDigit fuel >>= _) _ = _
      rw [bind_of_some (ih hds (by simpa using h))]
      rfl

end Digits

section Decimal

variable (n : Nat) (rest : List Char)

/-- All digits of a number are taken. -/
theorem decimal_digits :
    decimal (Decimal.digits n ++ '\n' :: rest) = some (Decimal.digits n, '\n' :: rest) := by
  have hds (c : Char) (hc : c ∈ Decimal.digits n) : Decimal.isDigit c = true :=
    Decimal.isDigit_of_mem_digits hc
  obtain ⟨d, ds, hdigits⟩ := List.exists_cons_of_ne_nil (Decimal.digits_ne_nil n)
  rw [decimal]
  rw [hdigits, List.cons_append, bind_of_some (peek?_cons _ _)]
  split
  · next hzero =>
    -- Zero is the only number that begins with one.
    have hlength : (Decimal.digits n).length = 1 :=
      Decimal.length_digits_of_head? (by rw [hdigits]; exact hzero)
    have hnil : ds = [] := by simpa [hdigits] using hlength
    rw [hnil]
    rfl
  · obtain ⟨hd, hds⟩ := List.forall_mem_cons.1 (hdigits ▸ hds)
    rw [digitsWith, bind_of_some (one_of_pos hd _), bind_of_some (get_eq _),
      bind_of_some (moreDigits_digits hds rest (by rw [List.length_append]; omega))]
    rfl

/-- Digits alone are no float. -/
theorem real_digits : real (Decimal.digits n ++ '\n' :: rest) = none := by
  have hds (c : Char) (hc : c ∈ Decimal.digits n) : Decimal.isDigit c = true :=
    Decimal.isDigit_of_mem_digits hc
  have hname : ((word "inf" *> pure "inf") <|> (word "nan" *> pure "nan") : Reader String)
      (Decimal.digits n ++ '\n' :: rest) = none := by
    have hinf : (word "inf" *> pure "inf" : Reader String) (Decimal.digits n ++ '\n' :: rest)
        = none := bind_of_none (word_digits hds rest rfl (by decide))
    rw [orElse_of_none hinf]
    exact bind_of_none (word_digits hds rest rfl (by decide))
  have hexponent : exponent ('\n' :: rest) = none := rfl
  have hfraction : fraction ('\n' :: rest) = none := rfl
  rw [real, bind_of_some (sign_digits hds rest), bind_of_some (optional_of_none hname)]
  show (decimal >>= _) _ = _
  rw [bind_of_some (decimal_digits n rest), bind_of_some (optional_of_none hexponent)]
  exact bind_of_none hfraction

/-- A number that fits is read from its digits. -/
theorem number_digits (h : n ≤ 9223372036854775807) :
    number (Decimal.digits n ++ '\n' :: rest) = some (.int n, '\n' :: rest) := by
  have hds (c : Char) (hc : c ∈ Decimal.digits n) : Decimal.isDigit c = true :=
    Decimal.isDigit_of_mem_digits hc
  have hbased {w : String} {w' : List Char} {base : Nat} {d : Char} (hw : w.toList = '0' :: d :: w')
      (hd : Decimal.isDigit d = false ∧ d ≠ '\n') :
      based w base (Decimal.digits n ++ '\n' :: rest) = none := by
    refine bind_of_none (word_of_not_front fun h => ?_)
    obtain ⟨c, cs, hdigits⟩ := List.exists_cons_of_ne_nil (Decimal.digits_ne_nil n)
    rw [hw, hdigits, List.cons_append] at h
    -- The letter would stand where a digit or the end of the line does.
    obtain ⟨e, es, htext, he⟩ := head_digits (List.forall_mem_cons.1 (hdigits ▸ hds)).2 rest
    rw [htext] at h
    obtain ⟨rfl, -⟩ := List.cons_prefix_cons.1 (List.cons_prefix_cons.1 h).2
    exact he.elim (fun he => ne_of_isDigit he hd.1 rfl) hd.2
  rw [number, orElse_of_none (time_digits hds rest), orElse_of_none (real_digits n rest), integer,
    orElse_of_none (hbased (w := "0x") rfl (by decide)),
    orElse_of_none (hbased (w := "0o") rfl (by decide)),
    orElse_of_none (hbased (w := "0b") rfl (by decide)), bind_of_some (sign_digits hds rest),
    bind_of_some (decimal_digits n rest)]
  simp only [Decimal.value_digits, fitting]
  rw [if_pos (by simp; omega)]
  rfl

end Decimal

end Reader

/-! ## values -/

open Reader

/-- A text is the one of a value: at the end of a line it is read as the value, and it does not
begin with a blank. -/
def Denotes (t : List Char) (v : Value) : Prop :=
  (∃ c cs, t = c :: cs ∧ isBlank c = false)
    ∧ ∀ rest, value deepest (t ++ '\n' :: rest) = some (v, '\n' :: rest)

theorem denotes_of_spells {t s : List Char} (h : Spells t s) :
    Denotes t (.text (String.ofList s)) := by
  have hmarks {mark : Char} {escapes : Bool}
      (hmark : (mark, escapes) ∈ [('"', true), ('\'', false)]) : mark = '"' ∨ mark = '\'' := by
    simp only [List.mem_cons, Prod.mk.injEq, List.not_mem_nil, or_false] at hmark
    exact hmark.imp And.left And.left
  have hfront : ∃ c cs, t = c :: cs ∧ (c = '"' ∨ c = '\'') := by
    cases h with
    | quoted _ => exact ⟨_, _, rfl, .inl rfl⟩
    | literal _ => exact ⟨_, _, rfl, .inr rfl⟩
    | lined hmark _ _ => exact ⟨_, _, rfl, hmarks hmark⟩
    | linedBelow hmark _ => exact ⟨_, _, rfl, hmarks hmark⟩
  obtain ⟨c, cs, rfl, hc⟩ := hfront
  refine ⟨⟨c, cs, rfl, ?_⟩, fun rest => ?_⟩
  · rcases hc with rfl | rfl <;> decide
  · have hstring := string_of_spells h rest
    rcases hc with rfl | rfl
    all_goals
      show (string >>= fun s => pure (Value.text s)) _ = _
      rw [bind_of_some hstring]
      rfl

/-- A character that begins a number begins nothing else. -/
theorem value_of_isDigit {c : Char} (hc : Decimal.isDigit c = true) (cs : List Char) :
    value deepest (c :: cs) = number (c :: cs) := by
  have hne (d : Char) (hd : Decimal.isDigit d = false) : some c ≠ some d :=
    fun heq => ne_of_isDigit hc hd (Option.some.inj heq)
  have hscalar : scalar (c :: cs) = number (c :: cs) := by
    rw [scalar, bind_of_some (peek?_cons c cs)]
    generalize hfront : some c = front
    split
    case h_7 => rfl
    all_goals exact absurd hfront (hne _ (by decide))
  rw [← hscalar]
  show (peek? >>= _) _ = _
  rw [bind_of_some (peek?_cons c cs)]
  generalize hfront : some c = front
  split
  case h_3 => rfl
  all_goals exact absurd hfront (hne _ (by decide))

theorem denotes_digits {n : Nat} (h : n ≤ 9223372036854775807) :
    Denotes (Decimal.text n).toList (.int n) := by
  have htext : (Decimal.text n).toList = Decimal.digits n := by
    rw [Decimal.text, String.toList_ofList]
    rfl
  obtain ⟨d, ds, hdigits⟩ := List.exists_cons_of_ne_nil (Decimal.digits_ne_nil n)
  have hd : Decimal.isDigit d = true :=
    Decimal.isDigit_of_mem_digits (n := n) (by rw [hdigits]; exact List.mem_cons_self)
  rw [htext]
  refine ⟨⟨d, ds, hdigits, ?_⟩, fun rest => ?_⟩
  · have hspace : d ≠ ' ' := ne_of_isDigit hd (by decide)
    have htab : d ≠ '\t' := ne_of_isDigit hd (by decide)
    simp [isBlank, hspace, htab]
  · have hnumber := number_digits n rest h
    rw [hdigits, List.cons_append] at hnumber ⊢
    rw [value_of_isDigit hd, hnumber]

theorem denotes_bool (b : Bool) : Denotes (if b then "true" else "false").toList (.bool b) := by
  cases b with
  | false => exact ⟨⟨_, _, rfl, by decide⟩, fun rest => rfl⟩
  | true => exact ⟨⟨_, _, rfl, by decide⟩, fun rest => rfl⟩

theorem denotes_nothing : Denotes "[]".toList (.array []) :=
  ⟨⟨_, _, rfl, by decide⟩, fun rest => rfl⟩

end ControlPlane.Toml
