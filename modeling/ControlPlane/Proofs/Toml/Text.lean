import Mathlib.Data.List.TakeWhile
import ControlPlane.Toml.Text

/-!
# ControlPlane.Proofs.Toml.Text

The forms that a string may take in a document (`Spells`): between quotes with escapes, between
apostrophes as it is, and either way over several lines between three marks.  Every form is read as
the string that it spells (`string_of_spells`), and what `quote` writes is one of them for every
string (`spells_quote`).  Left out are lines that a backslash joins and line breaks of two
characters, which are read but stand for nothing that another form could not spell.
-/

namespace ControlPlane.Toml

namespace Reader

variable {α β : Type}

/-! ## running readers -/

/-- A reader that succeeds hands over to the next. -/
theorem bind_of_some {r : Reader α} {f : α → Reader β} {cs rest : List Char} {a : α}
    (h : r cs = some (a, rest)) : (r >>= f) cs = f a rest := by
  simp only [bind, StateT.bind, h, Option.bind]

/-- Nothing is read behind what is not. -/
theorem bind_of_none {r : Reader α} {f : α → Reader β} {cs : List Char} (h : r cs = none) :
    (r >>= f) cs = none := by
  simp only [bind, StateT.bind, h, Option.bind]

theorem orElse_of_some {r s : Reader α} {cs : List Char} {a : α × List Char}
    (h : r cs = some a) : (r <|> s) cs = some a := by
  show (r cs <|> s cs) = some a
  rw [h]
  rfl

theorem orElse_of_none {r s : Reader α} {cs : List Char} (h : r cs = none) :
    (r <|> s) cs = s cs := by
  show (r cs <|> s cs) = s cs
  rw [h]
  rfl

theorem peek?_cons (c : Char) (cs : List Char) : peek? (c :: cs) = some (some c, c :: cs) := rfl

theorem get_eq (cs : List Char) : (get : Reader (List Char)) cs = some (cs, cs) := rfl

theorem one_of_pos {p : Char → Bool} {c : Char} (h : p c = true) (cs : List Char) :
    one p (c :: cs) = some (c, cs) := by
  rw [one, if_pos h]

theorem one_of_neg {p : Char → Bool} {c : Char} (h : p c = false) (cs : List Char) :
    one p (c :: cs) = none := by
  rw [one, h]
  rfl

theorem optional_of_none {r : Reader α} {cs : List Char} (h : r cs = none) :
    optional r cs = some (none, cs) := by
  rw [optional, h]

theorem optional_of_some {r : Reader α} {cs rest : List Char} {a : α} (h : r cs = some (a, rest)) :
    optional r cs = some (some a, rest) := by
  rw [optional, h]

/-- Characters are taken up to the first that does not pass. -/
theorem while'_append {p : Char → Bool} {l : List Char} (hl : ∀ d ∈ l, p d = true) {c : Char}
    (hc : p c = false) (cs : List Char) : while' p (l ++ c :: cs) = some (l, c :: cs) := by
  rw [while', List.takeWhile_append_of_pos hl, List.dropWhile_append_of_pos hl,
    List.takeWhile_cons_of_neg (by simp [hc]), List.dropWhile_cons_of_neg (by simp [hc]),
    List.append_nil]

/-! ## what is not there -/

theorem word_of_front (w : String) (rest : List Char) :
    word w (w.toList ++ rest) = some ((), rest) := by
  rw [word, if_pos (by simp), ← String.length_toList, List.drop_left]

theorem word_of_not_front {w : String} {cs : List Char} (h : ¬ w.toList <+: cs) :
    word w cs = none := by
  rw [word, if_neg (by simpa using h)]

/-- All blanks in front are taken. -/
theorem skipBlank_append {l : List Char} (hl : ∀ d ∈ l, isBlank d = true) {c : Char}
    (hc : isBlank c = false) (cs : List Char) : skipBlank (l ++ c :: cs) = some ((), c :: cs) := by
  rw [skipBlank, bind_of_some (while'_append hl hc cs)]
  rfl

theorem skipBlank_of_not_isBlank {c : Char} (h : isBlank c = false) (cs : List Char) :
    skipBlank (c :: cs) = some ((), c :: cs) :=
  skipBlank_append (List.forall_mem_nil _) h cs

theorem newline_of_ne {c : Char} (hfeed : c ≠ '\n') (hreturn : c ≠ '\r') (cs : List Char) :
    newline (c :: cs) = none := by
  have hword {w : String} {d : Char} {ds : List Char} (hw : w.toList = d :: ds) (hd : c ≠ d) :
      word w (c :: cs) = none :=
    word_of_not_front (by simp [hw, List.cons_prefix_cons, hd.symm])
  rw [newline, orElse_of_none (hword (d := '\n') rfl hfeed)]
  exact hword (d := '\r') rfl hreturn

/-- Marks in front that do not go on behind a text are all in it. -/
theorem replicate_front_of_append {mark : Char} {t rest : List Char}
    (hrest : rest.head? ≠ some mark) {n : Nat} (h : List.replicate n mark <+: t ++ rest) :
    List.replicate n mark <+: t := by
  induction n generalizing t with
  | zero => exact List.nil_prefix
  | succ n ih =>
      rw [List.replicate_succ] at h ⊢
      cases t with
      | nil =>
          obtain ⟨behind, rfl, -⟩ := List.cons_prefix_iff.1 h
          exact absurd rfl hrest
      | cons c t =>
          obtain ⟨hc, hbehind⟩ := List.cons_prefix_cons.1 h
          exact List.cons_prefix_cons.2 ⟨hc, ih hbehind⟩

/-- Fewer than three marks end nothing. -/
theorem closing_of_not_front {mark : Char} {cs : List Char} (h : ¬ [mark, mark, mark] <+: cs) :
    closing mark cs = none := by
  have hmarks : ¬ 3 ≤ (cs.takeWhile (· == mark)).length := by
    intro hlong
    have hall : cs.takeWhile (· == mark)
        = List.replicate (cs.takeWhile (· == mark)).length mark :=
      List.eq_replicate_iff.2 ⟨rfl, fun c hc => by simpa using List.mem_takeWhile_imp hc⟩
    obtain ⟨n, hn⟩ := Nat.exists_eq_add_of_le hlong
    rw [hn, ← List.replicate_append_replicate] at hall
    exact h (List.IsPrefix.trans ⟨_, hall.symm⟩ (List.takeWhile_prefix _))
  simp only [closing]
  rw [if_neg hmarks]

end Reader

/-! ## the forms of strings -/

/-- The escapes of one character. -/
def shortEscapes : List (Char × Char) :=
  [('b', '\x08'), ('t', '\t'), ('n', '\n'), ('f', '\x0c'), ('r', '\r'), ('"', '"'), ('\\', '\\')]

/-- What stands behind a backslash, and the character that it is for. -/
inductive Escape : List Char → Char → Prop
  | short {e c : Char} (h : (e, c) ∈ shortEscapes) : Escape [e] c
  | unicode {mark c : Char} {digits : List Char}
    (hmark : (mark, digits.length) ∈ [('u', 4), ('U', 8)])
    (hvalue : Hexadecimal.value? digits = some c.toNat) : Escape (mark :: digits) c

/-- What stands behind an opening quote, and the string. -/
inductive Quoted : List Char → List Char → Prop
  | close : Quoted ['"'] []
  | plain {c : Char} {t s : List Char} (hc : Reader.isPlain c = true) (h : Quoted t s) :
    Quoted (c :: t) (c :: s)
  | escaped {e t s : List Char} {c : Char} (he : Escape e c) (h : Quoted t s) :
    Quoted ('\\' :: (e ++ t)) (c :: s)

/-- What stands behind three opening marks, and the string.  Up to two marks in a row belong to the
string, also right before the closing ones. -/
inductive Lined (mark : Char) (escapes : Bool) : List Char → List Char → Prop
  | close {n : Nat} (hn : n ≤ 2) :
    Lined mark escapes (List.replicate (n + 3) mark) (List.replicate n mark)
  | feed {t s : List Char} (h : Lined mark escapes t s) :
    Lined mark escapes ('\n' :: t) ('\n' :: s)
  | plain {c : Char} {t s : List Char} (hc : Reader.isText c = true)
    (hslash : escapes = true → c ≠ '\\') (hmark : c = mark → ¬ [mark, mark] <+: t)
    (h : Lined mark escapes t s) : Lined mark escapes (c :: t) (c :: s)
  | escaped {e t s : List Char} {c : Char} (hescapes : escapes = true) (he : Escape e c)
    (h : Lined mark escapes t s) : Lined mark escapes ('\\' :: (e ++ t)) (c :: s)

/-- The text of a string in a document, and the string.  A line break right behind three opening
marks does not count. -/
inductive Spells : List Char → List Char → Prop
  | quoted {t s : List Char} (h : Quoted t s) : Spells ('"' :: t) s
  | literal {s : List Char} (h : ∀ c ∈ s, Reader.isLiteral c = true) :
    Spells ('\'' :: (s ++ ['\''])) s
  | lined {mark : Char} {escapes : Bool} {t s : List Char}
    (hmark : (mark, escapes) ∈ [('"', true), ('\'', false)]) (hfeed : t.head? ≠ some '\n')
    (h : Lined mark escapes t s) : Spells (mark :: mark :: mark :: t) s
  | linedBelow {mark : Char} {escapes : Bool} {t s : List Char}
    (hmark : (mark, escapes) ∈ [('"', true), ('\'', false)])
    (h : Lined mark escapes t s) : Spells (mark :: mark :: mark :: '\n' :: t) s

namespace Reader

/-! ## escapes -/

theorem codePoint_of_value {c : Char} {digits : List Char}
    (hvalue : Hexadecimal.value? digits = some c.toNat) (rest : List Char) :
    codePoint digits.length (digits ++ rest) = some (c, rest) := by
  have hvalid : c.toNat.isValidChar := c.valid
  rw [codePoint, bind_of_some (get_eq _)]
  simp only [List.take_left, List.drop_left, ne_eq, not_true_eq_false, if_false, hvalue]
  rw [if_pos hvalid, Char.ofNat_toNat]
  rfl

/-- An escape is read as the character that it is for. -/
theorem escape_of {e : List Char} {c : Char} (h : Escape e c) (rest : List Char) :
    escape (e ++ rest) = some (c, rest) := by
  cases h with
  | short h =>
      simp only [shortEscapes, List.mem_cons, Prod.mk.injEq, List.not_mem_nil, or_false] at h
      rcases h with ⟨rfl, rfl⟩ | ⟨rfl, rfl⟩ | ⟨rfl, rfl⟩ | ⟨rfl, rfl⟩ | ⟨rfl, rfl⟩ | ⟨rfl, rfl⟩
        | ⟨rfl, rfl⟩ <;> rfl
  | @unicode mark c digits hmark hvalue =>
      have hcode := codePoint_of_value hvalue rest
      simp only [List.mem_cons, Prod.mk.injEq, List.not_mem_nil, or_false] at hmark
      rcases hmark with ⟨rfl, hlength⟩ | ⟨rfl, hlength⟩ <;>
      · rw [hlength] at hcode
        rw [List.cons_append, escape, bind_of_some (one_of_pos rfl _)]
        exact hcode

/-- An escape begins with a letter, a quote or a backslash. -/
theorem exists_cons_of_escape {e : List Char} {c : Char} (h : Escape e c) :
    ∃ d ds, e = d :: ds ∧ isBlank d = false ∧ d ≠ '\n' ∧ d ≠ '\r' := by
  cases h with
  | @short e c h =>
      have hall : ∀ p ∈ shortEscapes, isBlank p.1 = false ∧ p.1 ≠ '\n' ∧ p.1 ≠ '\r' := by decide
      exact ⟨e, [], rfl, hall (e, c) h⟩
  | @unicode mark c digits hmark hvalue =>
      have hall : ∀ p ∈ [('u', 4), ('U', 8)],
          isBlank p.1 = false ∧ p.1 ≠ '\n' ∧ p.1 ≠ '\r' := by decide
      exact ⟨mark, digits, rfl, hall (mark, digits.length) hmark⟩

/-! ## between quotes -/

/-- A character that is written as it is is read as it is. -/
theorem basicBody_cons {c : Char} (hplain : isPlain c = true) (fuel : Nat) (cs : List Char) :
    basicBody (fuel + 1) (c :: cs) = (basicBody fuel cs).map fun r => (c :: r.1, r.2) := by
  have hquote : c ≠ '"' := by
    rintro rfl
    revert hplain
    decide
  have hslash : c ≠ '\\' := by
    rintro rfl
    revert hplain
    decide
  rw [basicBody, bind_of_some (one_of_pos rfl cs)]
  split
  · next heq => exact absurd rfl hquote
  · next heq => exact absurd rfl hslash
  · rw [if_pos hplain]
    simp only [bind, StateT.bind]
    cases basicBody fuel cs <;> rfl

theorem basicBody_escape {e : List Char} {c : Char} (h : Escape e c) (fuel : Nat)
    (cs : List Char) :
    basicBody (fuel + 1) ('\\' :: (e ++ cs))
      = (basicBody fuel cs).map fun r => (c :: r.1, r.2) := by
  rw [basicBody, bind_of_some (one_of_pos rfl _)]
  show (escape >>= _) _ = _
  rw [bind_of_some (escape_of h cs)]
  simp only [bind, StateT.bind]
  cases basicBody fuel cs <;> rfl

theorem basicBody_of_quoted {t s : List Char} (h : Quoted t s) {fuel : Nat}
    (hfuel : t.length ≤ fuel) (rest : List Char) : basicBody fuel (t ++ rest) = some (s, rest) := by
  induction h generalizing fuel with
  | close =>
      obtain ⟨fuel, rfl⟩ := Nat.exists_eq_add_one.2 hfuel
      rfl
  | plain hc _ ih =>
      obtain ⟨fuel, rfl⟩ := Nat.exists_eq_add_one.2 (Nat.zero_lt_of_lt hfuel)
      rw [List.cons_append, basicBody_cons hc, ih (by simpa using hfuel)]
      rfl
  | escaped he _ ih =>
      obtain ⟨fuel, rfl⟩ := Nat.exists_eq_add_one.2 (Nat.zero_lt_of_lt hfuel)
      rw [List.length_cons, List.length_append] at hfuel
      rw [List.cons_append, List.append_assoc, basicBody_escape he, ih (by omega)]
      rfl

/-- A string between quotes is read. -/
theorem basic_of_quoted {t s : List Char} (h : Quoted t s) (rest : List Char) :
    basic ('"' :: (t ++ rest)) = some (String.ofList s, rest) := by
  have hword (cs : List Char) : word "\"" ('"' :: cs) = some ((), cs) := rfl
  rw [basic, bind_of_some (hword _), bind_of_some (get_eq _),
    bind_of_some (basicBody_of_quoted h (by rw [List.length_append]; omega) rest)]
  rfl

/-- No other string begins with a quote. -/
theorem basic_of_ne {c : Char} (h : c ≠ '"') (cs : List Char) : basic (c :: cs) = none := by
  rw [basic, bind_of_none (word_of_not_front (by
    show ¬ ['"'] <+: c :: cs
    simp [List.cons_prefix_cons, h.symm]))]

/-! ## between apostrophes -/

theorem literal_of_ne {c : Char} (h : c ≠ '\'') (cs : List Char) : literal (c :: cs) = none := by
  rw [literal, bind_of_none (word_of_not_front (by
    show ¬ ['\''] <+: c :: cs
    simp [List.cons_prefix_cons, h.symm]))]

theorem literal_of {s : List Char} (h : ∀ c ∈ s, isLiteral c = true) (rest : List Char) :
    literal ('\'' :: (s ++ '\'' :: rest)) = some (String.ofList s, rest) := by
  have hword (cs : List Char) : word "'" ('\'' :: cs) = some ((), cs) := rfl
  rw [literal, bind_of_some (hword _), bind_of_some (while'_append h (by decide) rest),
    bind_of_some (hword _)]
  rfl

/-! ## over several lines -/

/-- Three marks end a string, and up to two in front of them belong to it. -/
theorem closing_replicate {mark : Char} {n : Nat} (hn : n ≤ 2) {rest : List Char}
    (hrest : rest.head? ≠ some mark) :
    closing mark (List.replicate (n + 3) mark ++ rest) = some (List.replicate n mark, rest) := by
  have hstop : rest.takeWhile (· == mark) = [] := by
    cases rest with
    | nil => rfl
    | cons c rest => exact List.takeWhile_cons_of_neg (by simpa using hrest)
  have hmarks : ((List.replicate (n + 3) mark ++ rest).takeWhile (· == mark)).length = n + 3 := by
    rw [List.takeWhile_append_of_pos (by simp), hstop, List.append_nil, List.length_replicate]
  simp only [closing]
  rw [hmarks, if_pos (by omega), Nat.add_sub_cancel, Nat.min_eq_left hn,
    List.drop_left' (by simp)]

section Lined

variable {mark : Char} {escapes : Bool} {cs : List Char}

theorem linesBody_close {rest extra : List Char} (h : closing mark cs = some (extra, rest))
    (fuel : Nat) : linesBody mark escapes (fuel + 1) cs = some (extra, rest) := by
  rw [linesBody, bind_of_some (optional_of_some h)]
  rfl

theorem linesBody_feed (hmark : mark ≠ '\n') (fuel : Nat) :
    linesBody mark escapes (fuel + 1) ('\n' :: cs)
      = (linesBody mark escapes fuel cs).map fun r => ('\n' :: r.1, r.2) := by
  have hclosing : closing mark ('\n' :: cs) = none :=
    closing_of_not_front (by simp [List.cons_prefix_cons, hmark])
  have hnewline : newline ('\n' :: cs) = some ((), cs) := rfl
  rw [linesBody, bind_of_some (optional_of_none hclosing)]
  show (optional newline >>= _) _ = _
  rw [bind_of_some (optional_of_some hnewline)]
  simp only [bind, StateT.bind]
  cases linesBody mark escapes fuel cs <;> rfl

/-- Whatever may stand in a text begins no line. -/
theorem newline_of_isText {c : Char} (hc : isText c = true) (cs : List Char) :
    newline (c :: cs) = none := by
  refine newline_of_ne ?_ ?_ cs
  all_goals
    rintro rfl
    revert hc
    decide

theorem linesBody_cons {c : Char} (hc : isText c = true) (hslash : escapes = true → c ≠ '\\')
    (hclosing : closing mark (c :: cs) = none) (fuel : Nat) :
    linesBody mark escapes (fuel + 1) (c :: cs)
      = (linesBody mark escapes fuel cs).map fun r => (c :: r.1, r.2) := by
  have hplain : ¬ (escapes && c == '\\') = true := by
    simpa using hslash
  rw [linesBody, bind_of_some (optional_of_none hclosing)]
  show (optional newline >>= _) _ = _
  rw [bind_of_some (optional_of_none (newline_of_isText hc cs))]
  show (one isText >>= _) _ = _
  rw [bind_of_some (one_of_pos hc cs), if_neg hplain]
  simp only [bind, StateT.bind]
  cases linesBody mark escapes fuel cs <;> rfl

theorem linesBody_escape {e : List Char} {c : Char} (he : Escape e c) (hmark : mark ≠ '\\')
    (fuel : Nat) :
    linesBody mark true (fuel + 1) ('\\' :: (e ++ cs))
      = (linesBody mark true fuel cs).map fun r => (c :: r.1, r.2) := by
  have hclosing : closing mark ('\\' :: (e ++ cs)) = none :=
    closing_of_not_front (by simp [List.cons_prefix_cons, hmark])
  have hjoined : joinedLines (e ++ cs) = none := by
    obtain ⟨d, ds, rfl, hblank, hfeed, hreturn⟩ := exists_cons_of_escape he
    rw [List.cons_append, joinedLines, bind_of_some (skipBlank_of_not_isBlank hblank _),
      bind_of_none (newline_of_ne hfeed hreturn _)]
  rw [linesBody, bind_of_some (optional_of_none hclosing)]
  show (optional newline >>= _) _ = _
  rw [bind_of_some (optional_of_none (newline_of_isText rfl _))]
  show (one isText >>= _) _ = _
  rw [bind_of_some (one_of_pos rfl _), if_pos (by decide)]
  show (optional joinedLines >>= _) _ = _
  rw [bind_of_some (optional_of_none hjoined)]
  show (escape >>= _) _ = _
  rw [bind_of_some (escape_of he cs)]
  simp only [bind, StateT.bind]
  cases linesBody mark true fuel cs <;> rfl

theorem linesBody_of_lined {t s : List Char} (hmark : mark ≠ '\n' ∧ mark ≠ '\\')
    (h : Lined mark escapes t s) {fuel : Nat} (hfuel : t.length ≤ fuel) {rest : List Char}
    (hrest : rest.head? ≠ some mark) :
    linesBody mark escapes fuel (t ++ rest) = some (s, rest) := by
  induction h generalizing fuel with
  | close hn =>
      obtain ⟨fuel, rfl⟩ := Nat.exists_eq_add_one.2
        (show 0 < fuel by rw [List.length_replicate] at hfuel; omega)
      exact linesBody_close (closing_replicate hn hrest) fuel
  | feed _ ih =>
      obtain ⟨fuel, rfl⟩ := Nat.exists_eq_add_one.2 (Nat.zero_lt_of_lt hfuel)
      rw [List.cons_append, linesBody_feed hmark.1, ih (by simpa using hfuel)]
      rfl
  | @plain c t s hc hslash hfew hbody ih =>
      obtain ⟨fuel, rfl⟩ := Nat.exists_eq_add_one.2 (Nat.zero_lt_of_lt hfuel)
      have hclosing : closing mark (c :: (t ++ rest)) = none := by
        refine closing_of_not_front fun hthree => ?_
        obtain ⟨hc, htwo⟩ := List.cons_prefix_cons.1 hthree
        exact hfew hc.symm (replicate_front_of_append (n := 2) hrest htwo)
      rw [List.cons_append, linesBody_cons hc hslash hclosing, ih (by simpa using hfuel)]
      rfl
  | escaped hescapes he _ ih =>
      subst hescapes
      obtain ⟨fuel, rfl⟩ := Nat.exists_eq_add_one.2 (Nat.zero_lt_of_lt hfuel)
      rw [List.length_cons, List.length_append] at hfuel
      rw [List.cons_append, List.append_assoc, linesBody_escape he hmark.2, ih (by omega)]
      rfl

end Lined

/-- Three marks open a string over several lines. -/
theorem word_marks (mark : Char) (cs : List Char) :
    word (String.ofList [mark, mark, mark]) (mark :: mark :: mark :: cs) = some ((), cs) := by
  have hword := word_of_front (String.ofList [mark, mark, mark]) cs
  rwa [String.toList_ofList] at hword

theorem lines_of_not_front {mark : Char} {escapes : Bool} {cs : List Char}
    (h : ¬ [mark, mark, mark] <+: cs) : lines mark escapes cs = none := by
  rw [lines, bind_of_none (word_of_not_front (by rwa [String.toList_ofList]))]

section Lines

variable {mark : Char} {escapes : Bool} {t s rest : List Char}
  (hmark : (mark, escapes) ∈ [('"', true), ('\'', false)]) (h : Lined mark escapes t s)
  (hrest : rest.head? ≠ some mark)

include hmark in
/-- Neither mark breaks a line or begins an escape. -/
theorem mark_ne : mark ≠ '\n' ∧ mark ≠ '\r' ∧ mark ≠ '\\' := by
  have hall : ∀ m ∈ [('"', true), ('\'', false)], m.1 ≠ '\n' ∧ m.1 ≠ '\r' ∧ m.1 ≠ '\\' := by decide
  exact hall (mark, escapes) hmark

include hmark h hrest

theorem lines_below :
    lines mark escapes (mark :: mark :: mark :: '\n' :: (t ++ rest))
      = some (String.ofList s, rest) := by
  obtain ⟨hfeeding, hreturn, hslash⟩ := mark_ne hmark
  have hnewline (cs : List Char) : newline ('\n' :: cs) = some ((), cs) := rfl
  rw [lines, bind_of_some (word_marks mark _), bind_of_some (optional_of_some (hnewline _)),
    bind_of_some (get_eq _), bind_of_some (linesBody_of_lined ⟨hfeeding, hslash⟩ h
      (by rw [List.length_append]; omega) hrest)]
  rfl

theorem lines_of_lined (hfeed : t.head? ≠ some '\n') :
    lines mark escapes (mark :: mark :: mark :: (t ++ rest)) = some (String.ofList s, rest) := by
  obtain ⟨hfeeding, hreturn, hslash⟩ := mark_ne hmark
  have hnewline : newline (t ++ rest) = none := by
    cases h with
    | close _ => exact newline_of_ne hfeeding hreturn _
    | feed _ => exact absurd rfl hfeed
    | plain hc _ _ _ => exact newline_of_isText hc _
    | escaped _ _ _ => exact newline_of_isText rfl _
  rw [lines, bind_of_some (word_marks mark _), bind_of_some (optional_of_none hnewline),
    bind_of_some (get_eq _), bind_of_some (linesBody_of_lined ⟨hfeeding, hslash⟩ h
      (by rw [List.length_append]; omega) hrest)]
  rfl

end Lines

/-! ## any form -/

theorem string_of_basic {cs rest : List Char} {s : String} (hlines : ¬ ['"', '"', '"'] <+: cs)
    (h : basic cs = some (s, rest)) : string cs = some (s, rest) := by
  rw [string, orElse_of_none (lines_of_not_front hlines)]
  exact orElse_of_some h

/-- What begins with an apostrophe is read as it is. -/
theorem string_apostrophe (cs : List Char) :
    string ('\'' :: cs) = (lines '\'' false <|> literal) ('\'' :: cs) := by
  rw [string, orElse_of_none (lines_of_not_front (by simp [List.cons_prefix_cons])),
    orElse_of_none (basic_of_ne (by decide) cs)]

theorem string_of_lines {mark : Char} {escapes : Bool} {cs rest : List Char} {s : String}
    (hmark : (mark, escapes) ∈ [('"', true), ('\'', false)])
    (h : lines mark escapes (mark :: cs) = some (s, rest)) :
    string (mark :: cs) = some (s, rest) := by
  simp only [List.mem_cons, Prod.mk.injEq, List.not_mem_nil, or_false] at hmark
  rcases hmark with ⟨rfl, rfl⟩ | ⟨rfl, rfl⟩
  · rw [string]
    exact orElse_of_some h
  · rw [string_apostrophe]
    exact orElse_of_some h

/-- **Strings** are read in all of their forms, at the end of a line. -/
theorem string_of_spells {t s : List Char} (h : Spells t s) (rest : List Char) :
    string (t ++ '\n' :: rest) = some (String.ofList s, '\n' :: rest) := by
  have hrest (mark : Char) (hmark : mark ≠ '\n') : ('\n' :: rest).head? ≠ some mark := by
    simpa using hmark.symm
  cases h with
  | @quoted t s h =>
      refine string_of_basic (fun hthree => ?_) (basic_of_quoted h _)
      have htwo : List.replicate 2 '"' <+: t :=
        replicate_front_of_append (hrest '"' (by decide)) (List.cons_prefix_cons.1 hthree).2
      cases h with
      | close => exact absurd htwo (by decide)
      | plain hc _ =>
          obtain ⟨rfl, -⟩ := List.cons_prefix_cons.1 htwo
          revert hc
          decide
      | escaped _ _ => exact absurd (List.cons_prefix_cons.1 htwo).1 (by decide)
  | @literal s h =>
      have hthree : ¬ ['\'', '\'', '\''] <+: '\'' :: (s ++ ['\''] ++ '\n' :: rest) := by
        intro hthree
        have htwo : List.replicate 2 '\'' <+: s ++ ['\''] :=
          replicate_front_of_append (hrest '\'' (by decide)) (List.cons_prefix_cons.1 hthree).2
        cases s with
        | nil => exact absurd htwo (by decide)
        | cons c s =>
            obtain ⟨rfl, -⟩ := List.cons_prefix_cons.1 htwo
            exact absurd (h '\'' List.mem_cons_self) (by decide)
      rw [List.cons_append, string_apostrophe, orElse_of_none (lines_of_not_front hthree),
        List.append_assoc]
      exact literal_of h _
  | lined hmark hfeed h =>
      exact string_of_lines hmark
        (lines_of_lined hmark h (hrest _ (mark_ne hmark).1) hfeed)
  | linedBelow hmark h =>
      exact string_of_lines hmark (lines_below hmark h (hrest _ (mark_ne hmark).1))

end Reader

/-! ## writing -/

/-- Two digits behind two zeros spell a character of one byte. -/
theorem value?_control {n : Nat} (h : n < 256) :
    Hexadecimal.value? ['0', '0', Hexadecimal.upperDigitChar (n / 16),
      Hexadecimal.upperDigitChar (n % 16)] = some n := by
  have hzero : Hexadecimal.digitValue? '0' = some 0 := by decide
  have hhigh := Hexadecimal.digitValue?_upperDigitChar (n := n / 16) (by omega)
  have hlow := Hexadecimal.digitValue?_upperDigitChar (n := n % 16) (by omega)
  simp only [Hexadecimal.value?, List.foldlM_cons, List.foldlM_nil, hzero, hhigh, hlow,
    Option.map_some, Option.bind_eq_bind, Option.bind_some, Option.pure_def, Option.some.injEq]
  omega

theorem quoted_escapeChar (c : Char) {t s : List Char} (h : Quoted t s) :
    Quoted (escapeChar c ++ t) (c :: s) := by
  unfold escapeChar
  split
  all_goals try exact .escaped (.short (by decide)) h
  next _ _ _ _ _ hquote hslash =>
  split
  · next hcontrol => exact .escaped (.unicode List.mem_cons_self (value?_control (by omega))) h
  · next hcontrol =>
      refine .plain ?_ h
      have hlow : 32 ≤ c.toNat ∧ c.toNat ≠ 127 := by omega
      simp [Reader.isPlain, Reader.isText, hlow, show c ≠ '"' from hquote,
        show c ≠ '\\' from hslash]

/-- What is written for a string spells it. -/
theorem spells_quote (s : String) : Spells (quote s).toList s.toList := by
  have hbody (cs : List Char) : Quoted (cs.flatMap escapeChar ++ ['"']) cs := by
    induction cs with
    | nil => exact .close
    | cons c cs ih =>
        rw [List.flatMap_cons, List.append_assoc]
        exact quoted_escapeChar c ih
  rw [quote, String.toList_ofList]
  exact .quoted (hbody s.toList)

end ControlPlane.Toml
