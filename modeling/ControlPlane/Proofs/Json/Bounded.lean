import ControlPlane.Json.Form

/-!
# ControlPlane.Proofs.Json.Bounded

A text bounds what is read from it.  No reader leaves more characters than it was given, a string
that is read has no more characters than stood there, and a list or map has no more items: so from
a text of at most `n` characters come texts of at most `n` characters and lists of at most `n`
items, however they are nested (`Form.Bounded`).
-/

namespace ControlPlane.Json

namespace Reader

variable {α β : Type} {n : Nat}

/-- From a text of at most `n` characters, the reader leaves at most `n`, and what it returns
satisfies a condition. -/
def Bounded (n : Nat) (P : α → Prop) (r : Reader α) : Prop :=
  ∀ cs a rest, cs.length ≤ n → r cs = .ok (a, rest) → rest.length ≤ n ∧ P a

/-! ## running one reader after the other -/

namespace Bounded

variable {P : α → Prop} {Q : β → Prop} {r : Reader α}

theorem imp {P' : α → Prop} (h : Bounded n P r) (hP : ∀ a, P a → P' a) : Bounded n P' r :=
  fun cs a rest hcs hr => ⟨(h cs a rest hcs hr).1, hP a (h cs a rest hcs hr).2⟩

theorem trivial (h : Bounded n P r) : Bounded n (fun _ => True) r := h.imp fun _ _ => .intro

theorem pure {a : α} (h : P a) : Bounded n P (Pure.pure a) := by
  intro cs b rest hcs hr
  cases hr
  exact ⟨hcs, h⟩

theorem throw (fault : Fault) : Bounded n P (throw fault : Reader α) := fun _ _ _ _ hr => nomatch hr

theorem bind {f : α → Reader β} (h : Bounded n P r) (hf : ∀ a, P a → Bounded n Q (f a)) :
    Bounded n Q (r >>= f) := by
  intro cs b rest hcs hr
  simp only [Bind.bind, StateT.bind, Except.bind] at hr
  cases hstep : r cs with
  | error fault => simp [hstep] at hr
  | ok result =>
      obtain ⟨a, left⟩ := result
      simp only [hstep] at hr
      obtain ⟨hleft, ha⟩ := h cs a left hcs hstep
      exact hf a ha left b rest hleft hr

/-- A reader that passes over some of the text. -/
theorem of_le {r : Reader Unit} (h : ∀ cs rest, r cs = .ok ((), rest) → rest.length ≤ cs.length) :
    Bounded n (fun _ => True) r :=
  fun cs _ rest hcs hr => ⟨Nat.le_trans (h cs rest hr) hcs, .intro⟩

end Bounded

/-! ## characters -/

theorem bounded_get : Bounded n (fun cs => cs.length ≤ n) (get : Reader (List Char)) := by
  intro cs a rest hcs hr
  cases hr
  exact ⟨hcs, hcs⟩

theorem length_dropBlank (cs : List Char) : (cs.dropWhile isBlank).length ≤ cs.length :=
  (List.dropWhile_suffix _).length_le

/-- Behind a character that is found behind blanks, there is less. -/
theorem length_lt_of_dropBlank {cs rest : List Char} {c : Char}
    (h : cs.dropWhile isBlank = c :: rest) : rest.length < cs.length := by
  have hcs := length_dropBlank cs
  rwa [h] at hcs

theorem bounded_skipBlank : Bounded n (fun _ => True) skipBlank := by
  refine Bounded.of_le fun cs rest hr => ?_
  cases hr
  exact length_dropBlank cs

theorem bounded_peek? : Bounded n (fun _ => True) peek? :=
  bounded_get.bind fun _ _ => .pure .intro

theorem bounded_advance : Bounded n (fun _ => True) advance := by
  refine Bounded.of_le fun cs rest hr => ?_
  cases hr
  exact (List.drop_suffix 1 cs).length_le

theorem bounded_peekToken? : Bounded n (fun _ => True) peekToken? :=
  bounded_skipBlank.bind fun _ _ => bounded_peek?

theorem bounded_expect (c : Char) : Bounded n (fun _ => True) (expect c) := by
  refine bounded_peekToken?.bind fun _ _ => ?_
  split
  · exact bounded_advance
  · exact .throw _

theorem bounded_word (w : String) : Bounded n (fun _ => True) (word w) := by
  refine Bounded.of_le fun cs rest hr => ?_
  simp only [word] at hr
  split at hr
  · cases hr
    exact (List.drop_suffix _ cs).length_le
  · cases hr

/-! ## strings -/

theorem length_stringBody {cs s rest : List Char} (h : stringBody cs = some (s, rest)) :
    s.length + rest.length ≤ cs.length := by
  fun_induction stringBody cs generalizing s rest with
  | case1 => cases h
  | case2 rest' =>
      cases h
      simp
  | case3 rest' ih =>
      simp only [Option.bind_eq_bind, Option.bind_eq_some_iff] at h
      obtain ⟨⟨c, taken⟩, -, ⟨s', left⟩, hbody, hresult⟩ := h
      cases hresult
      have hrest := ih taken hbody
      simp only [List.length_drop, List.length_cons] at hrest ⊢
      omega
  | case4 c rest' _ _ hlow => cases h
  | case5 c rest' _ _ hlow ih =>
      simp only [Option.bind_eq_bind, Option.bind_eq_some_iff] at h
      obtain ⟨⟨s', left⟩, hbody, hresult⟩ := h
      cases hresult
      have hrest := ih hbody
      simp only [List.length_cons] at hrest ⊢
      omega

theorem bounded_string : Bounded n (fun s => s.length ≤ n) string := by
  intro cs a rest hcs hr
  simp only [string] at hr
  split at hr
  · next s left hbody =>
      cases hr
      have hlength := length_stringBody hbody
      simp only [List.length_drop] at hlength
      show rest.length ≤ n ∧ (String.ofList s).length ≤ n
      rw [String.length_ofList]
      omega
  · cases hr

/-! ## numbers -/

theorem length_splitDigits (cs : List Char) : (Numeral.splitDigits cs).2.length ≤ cs.length :=
  (List.dropWhile_suffix _).length_le

theorem length_readExponent {negative : Bool} {s : Nat} {start : Int} {cs rest : List Char}
    {x : Float} (h : Numeral.readExponent negative s start cs = some (x, rest)) :
    rest.length ≤ cs.length := by
  -- behind the sign of the exponent
  have hdigits {negativeExponent : Bool} {left : List Char}
      (h : (if (Numeral.splitDigits left).1.isEmpty then none
        else (Numeral.withExponent negative s start negativeExponent
          (Numeral.splitDigits left).1).map (·, (Numeral.splitDigits left).2)) = some (x, rest)) :
      rest.length ≤ left.length := by
    split at h
    · cases h
    · obtain ⟨y, -, hy⟩ := Option.map_eq_some_iff.1 h
      cases hy
      exact length_splitDigits left
  simp only [Numeral.readExponent] at h
  split at h
  · next c left =>
      split at h
      · split at h <;> exact Nat.le_trans (hdigits h) (by simp only [List.length_cons]; omega)
      · obtain ⟨y, -, hy⟩ := Option.map_eq_some_iff.1 h
        cases hy
        exact Nat.le_refl _
  · obtain ⟨y, -, hy⟩ := Option.map_eq_some_iff.1 h
    cases hy
    exact Nat.le_refl _

theorem length_readMagnitude {negative : Bool} {cs rest : List Char} {a : Numeral}
    (h : Numeral.readMagnitude negative cs = some (a, rest)) : rest.length ≤ cs.length := by
  have hcs := length_splitDigits cs
  simp only [Numeral.readMagnitude] at h
  split at h
  · cases h
  · split at h
    · next left hleft =>
        rw [hleft, List.length_cons] at hcs
        split at h
        · cases h
        · obtain ⟨⟨x, left'⟩, hx, heq⟩ := Option.map_eq_some_iff.1 h
          cases heq
          have hfraction := length_splitDigits left
          exact Nat.le_trans (length_readExponent hx) (by omega)
    · next c left _ hleft =>
        split at h
        · obtain ⟨⟨x, left'⟩, hx, heq⟩ := Option.map_eq_some_iff.1 h
          cases heq
          exact Nat.le_trans (length_readExponent hx) hcs
        · cases h
          exact hcs
    · split at h
      · obtain ⟨x, -, heq⟩ := Option.map_eq_some_iff.1 h
        cases heq
        exact Nat.zero_le _
      · cases h
        exact Nat.zero_le _

theorem bounded_number : Bounded n (fun _ => True) number := by
  intro cs a rest hcs hr
  simp only [number] at hr
  split at hr
  · next result hread =>
      cases hr
      refine ⟨Nat.le_trans ?_ hcs, .intro⟩
      split at hread
      · next left => exact Nat.le_trans (length_readMagnitude hread) (Nat.le_succ _)
      · exact length_readMagnitude hread
  · cases hr

/-! ## what is passed over -/

theorem length_ignoredString {cs rest : List Char} (h : ignoredString cs = some rest) :
    rest.length ≤ cs.length := by
  fun_induction ignoredString cs generalizing rest with
  | case1 => cases h
  | case2 rest' =>
      cases h
      exact Nat.le_succ _
  | case3 rest' hunit ih =>
      have hrest := ih h
      simp only [List.length_drop, List.length_cons] at hrest ⊢
      omega
  | case4 => cases h
  | case5 c rest' _ _ ih =>
      have hrest := ih h
      simp only [List.length_cons] at hrest ⊢
      omega
  | case6 => cases h
  | case7 => cases h
  | case8 c rest' _ _ _ ih =>
      have hrest := ih h
      simp only [List.length_cons] at hrest ⊢
      omega

theorem length_ignoredExponent {cs rest : List Char} (h : ignoredExponent cs = some rest) :
    rest.length ≤ cs.length := by
  -- behind the sign of the exponent
  have hdigits {left : List Char}
      (h : (if (Numeral.splitDigits left).1.isEmpty then none
        else some (Numeral.splitDigits left).2) = some rest) : rest.length ≤ left.length := by
    split at h
    · cases h
    · cases h
      exact length_splitDigits left
  simp only [ignoredExponent] at h
  split at h
  · next c left =>
      split at h
      · split at h <;> exact Nat.le_trans (hdigits h) (by simp only [List.length_cons]; omega)
      · cases h
        exact Nat.le_refl _
  · cases h
    exact Nat.le_refl _

theorem length_ignoredNumber {cs rest : List Char} (h : ignoredNumber cs = some rest) :
    rest.length ≤ cs.length := by
  have hcs := length_splitDigits cs
  simp only [ignoredNumber] at h
  split at h
  · cases h
  · split at h
    · next left hleft =>
        rw [hleft, List.length_cons] at hcs
        split at h
        · cases h
        · have hfraction := length_splitDigits left
          have hexponent := length_ignoredExponent h
          omega
    · exact Nat.le_trans (length_ignoredExponent h) hcs

theorem length_ignoredScalar {cs rest : List Char} (h : ignoredScalar cs = some rest) :
    rest.length ≤ cs.length := by
  unfold ignoredScalar at h
  split at h
  · cases h
    exact Nat.le_add_right _ 4
  · cases h
    exact Nat.le_add_right _ 4
  · cases h
    exact Nat.le_add_right _ 5
  · exact Nat.le_trans (length_ignoredString h) (Nat.le_succ _)
  · exact Nat.le_trans (length_ignoredNumber h) (Nat.le_succ _)
  · exact length_ignoredNumber h

theorem length_ignoredName {cs rest : List Char} (h : ignoredName cs = some rest) :
    rest.length ≤ cs.length := by
  unfold ignoredName at h
  split at h
  · next left hleft =>
      have hquote := length_lt_of_dropBlank hleft
      simp only [Option.bind_eq_bind, Option.bind_eq_some_iff] at h
      obtain ⟨behind, hstring, h⟩ := h
      have hbehind := length_ignoredString hstring
      split at h
      · next left' hleft' =>
          cases h
          have hcolon := length_lt_of_dropBlank hleft'
          omega
      · cases h
  · cases h

section Ignored

variable {fuel : Nat}
  (hvalue : ∀ opened cs rest, ignoredValue fuel opened cs = some rest → rest.length ≤ cs.length)
  (hrest : ∀ opened cs rest, ignoredRest fuel opened cs = some rest → rest.length ≤ cs.length)
include hvalue hrest

theorem length_ignoredValue_succ {opened : List Bracket} {cs rest : List Char}
    (h : ignoredValue (fuel + 1) opened cs = some rest) : rest.length ≤ cs.length := by
  unfold ignoredValue at h
  split at h
  · next left hleft =>
      have hopen := length_lt_of_dropBlank hleft
      split at h
      · next behind hbehind =>
          have hclose := length_lt_of_dropBlank hbehind
          have hlength := hrest _ _ _ h
          omega
      · have hlength := hvalue _ _ _ h
        have hblank := length_dropBlank left
        omega
  · next left hleft =>
      have hopen := length_lt_of_dropBlank hleft
      split at h
      · next behind hbehind =>
          have hclose := length_lt_of_dropBlank hbehind
          have hlength := hrest _ _ _ h
          omega
      · obtain ⟨behind, hname, h⟩ := Option.bind_eq_some_iff.1 h
        have hlength := hvalue _ _ _ h
        have hbehind := length_ignoredName hname
        have hblank := length_dropBlank left
        omega
  · obtain ⟨behind, hscalar, h⟩ := Option.bind_eq_some_iff.1 h
    have hlength := hrest _ _ _ h
    have hbehind := length_ignoredScalar hscalar
    have hblank := length_dropBlank cs
    omega

theorem length_ignoredRest_succ {opened : List Bracket} {cs rest : List Char}
    (h : ignoredRest (fuel + 1) opened cs = some rest) : rest.length ≤ cs.length := by
  cases opened with
  | nil =>
      cases h
      exact Nat.le_refl _
  | cons bracket opened =>
      unfold ignoredRest at h
      split at h
      · next left hleft =>
          have hcomma := length_lt_of_dropBlank hleft
          have hlength := hvalue _ _ _ h
          omega
      · next left hleft =>
          have hcomma := length_lt_of_dropBlank hleft
          obtain ⟨behind, hname, h⟩ := Option.bind_eq_some_iff.1 h
          have hlength := hvalue _ _ _ h
          have hbehind := length_ignoredName hname
          omega
      · next left hleft =>
          have hclose := length_lt_of_dropBlank hleft
          have hlength := hrest _ _ _ h
          omega
      · next left hleft =>
          have hclose := length_lt_of_dropBlank hleft
          have hlength := hrest _ _ _ h
          omega
      · cases h

end Ignored

/-- Passing over a value, and going on behind it, takes characters from the front only. -/
theorem length_ignoredValue_and_rest (fuel : Nat) :
    (∀ opened cs rest, ignoredValue fuel opened cs = some rest → rest.length ≤ cs.length) ∧
      ∀ opened cs rest, ignoredRest fuel opened cs = some rest → rest.length ≤ cs.length := by
  induction fuel with
  | zero => exact ⟨fun _ _ _ h => (nomatch h), fun _ _ _ h => (nomatch h)⟩
  | succ fuel ih =>
      exact ⟨fun _ _ _ h => length_ignoredValue_succ ih.1 ih.2 h,
        fun _ _ _ h => length_ignoredRest_succ ih.1 ih.2 h⟩

theorem bounded_ignored : Bounded n (fun _ => True) ignored := by
  refine Bounded.of_le fun cs rest hr => ?_
  simp only [ignored] at hr
  split at hr
  · next left hleft =>
      cases hr
      exact (length_ignoredValue_and_rest _).1 _ _ _ hleft
  · cases hr

end Reader

end ControlPlane.Json
