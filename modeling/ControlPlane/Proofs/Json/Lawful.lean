import ControlPlane.Proofs.Json.Members
import ControlPlane.Proofs.SortedMap
import ControlPlane.Proofs.Text.Characters

/-!
# ControlPlane.Proofs.Json.Lawful

Forms that are read back.  A form is lawful if its reader reads the JSON of every value, and that
JSON stands for the value.  A value of such a type is then what its compact text, and the bytes of
that, are parsed to: `parse_write`, `parseBytes_writeBytes`.
-/

namespace ControlPlane.Json

open Reader

/-- A form that is read back. -/
class LawfulForm (α : Type) [Form α] : Prop where
  ofJson?_toJson (a : α) : ofJson? (toJson a) = some a
  reads (a : α) : Reads (Form.reader α) (toJson a)

export LawfulForm (ofJson?_toJson reads)

attribute [simp] LawfulForm.ofJson?_toJson

/-- A form whose text does not begin like nothing does, so it may be absent. -/
class NeverNull (α : Type) [Form α] : Prop where
  head?_ne (a : α) : (toJson a).compact.head? ≠ some 'n'

/-- A value that is read back, of a type of which others may not be. -/
structure ReadBack {α : Type} [Form α] (a : α) : Prop where
  ofJson? : ofJson? (toJson a) = some a
  reads : Reads (Form.reader α) (toJson a)

/-! ## whole texts -/

/-- The characters of the bytes of a text are those of the text. -/
theorem characters_encode (s : String) : characters (Utf8.encode s) = s.toList := by
  rw [characters, Utf8.charactersFrom_encode]

/-- So bytes that are UTF-8 are parsed like the text that they are. -/
theorem parseBytes_encode {α : Type} [Form α] (s : String) :
    parseBytes (α := α) (Utf8.encode s) = parse s := by
  rw [parseBytes, characters_encode, parse]

/-- What is taken for the JSON of a value is read as the value, and nothing is left. -/
theorem Takes.run_read {α : Type} [Form α] {a : α} {j : Json}
    (h : Takes (Form.reader α) j (toJson a)) (hjson : ofJson? (toJson a) = some a) :
    (Form.read (α := α)).run j.render.toList = .ok (a, []) := by
  have hrun := h.run [] closed_nil
  rw [List.append_nil] at hrun
  rw [render, String.toList_ofList]
  show (Form.reader α >>= _) _ = _
  rw [bind_of_ok hrun]
  simp only [hjson]
  rfl

namespace ReadBack

variable {α : Type} [Form α] {a : α}

/-- A value is read off the compact text of it, and nothing is left. -/
theorem run (h : ReadBack a) : (Form.read (α := α)).run (write a).toList = .ok (a, []) :=
  h.reads.run_read h.ofJson?

/-- A value is what its compact text is parsed to. -/
theorem parse_eq (h : ReadBack a) : parse (write a) = .ok a := by
  rw [parse, parseChars, h.run]
  rfl

end ReadBack

section Parsing

variable {α : Type} [Form α] [LawfulForm α]

theorem readBack (a : α) : ReadBack a := ⟨ofJson?_toJson a, reads a⟩

/-- **Round trip of texts**: a value is what its compact text is parsed to. -/
theorem parse_write (a : α) : parse (write a) = .ok a := (readBack a).parse_eq

/-- What is taken for the JSON of a value stands for the value at the front of its bytes. -/
theorem Takes.parseFront_eq {a : α} {j : Json} (h : Takes (Form.reader α) j (toJson a)) :
    parseFront (Utf8.encode j.render) = .ok a := by
  rw [parseFront, characters_encode, h.run_read (ofJson?_toJson a)]
  rfl

/-- A value is at the front of the bytes of its compact text. -/
theorem parseFront_writeBytes (a : α) : parseFront (writeBytes a) = .ok a := (reads a).parseFront_eq

/-- **Round trip of bytes**: a value is what the bytes of its compact text are parsed to. -/
theorem parseBytes_writeBytes (a : α) : parseBytes (writeBytes a) = .ok a := by
  rw [writeBytes, parseBytes_encode, parse_write]

/-- Values with the same bytes are the same. -/
theorem writeBytes_injective : Function.Injective (writeBytes (α := α)) := by
  intro a b h
  have hparse : parseBytes (writeBytes a) = .ok b := by rw [h, parseBytes_writeBytes]
  rw [parseBytes_writeBytes, Except.ok.injEq] at hparse
  exact hparse

end Parsing

/-! ## scalars -/

theorem Reads.text (s : String) : Reads Reader.text (.text s) where
  opens := ⟨'"', _, rfl, by decide, by decide⟩
  run rest _ := by
    have hquote : compact (.text s) ++ rest
        = '"' :: (s.toList.flatMap escapeChar ++ ['"'] ++ rest) := rfl
    rw [hquote, Reader.text, bind_of_ok (peekToken?_cons (by decide) _), if_pos rfl]
    exact bind_of_ok (string_quote s rest)

/-- An integer begins with a digit or a minus sign. -/
theorem signed_eq_cons (n : Int) :
    ∃ c cs, Decimal.signed n = c :: cs ∧ (c = '-' ∨ Decimal.isDigit c = true) := by
  cases n with
  | ofNat n =>
      obtain ⟨c, cs, h⟩ := List.exists_cons_of_ne_nil (Decimal.digits_ne_nil n)
      exact ⟨c, cs, h, .inr (Decimal.isDigit_of_mem_digits (n := n) (by simp [h]))⟩
  | negSucc n => exact ⟨'-', _, rfl, .inl rfl⟩

/-- Where an integer begins is neither a blank nor a bracket. -/
theorem not_isBlank_of_sign {c : Char} (h : c = '-' ∨ Decimal.isDigit c = true) :
    isBlank c = false ∧ c ≠ ']' := by
  rcases h with rfl | h
  · decide
  · have hne {d : Char} (hd : Decimal.isDigit d = false) : c ≠ d := by
      intro h
      subst h
      rw [h] at hd
      cases hd
    exact ⟨by simp [isBlank, hne (d := ' ') (by decide), hne (d := '\n') (by decide),
      hne (d := '\t') (by decide), hne (d := '\r') (by decide)], hne (by decide)⟩

/-- An integer of a range inside that of 64 bits is read back. -/
theorem integer_signed {low high n : Int} (hlow : low ≤ n) (hhigh : n ≤ high)
    (hmin : -9223372036854775808 ≤ n) (hmax : n ≤ 18446744073709551615) {rest : List Char}
    (hrest : Closed rest) :
    Reader.integer low high (Decimal.signed n ++ rest) = .ok (.int n, rest) := by
  rw [Reader.integer, bind_of_ok (number_signed hmin hmax hrest)]
  simp only [if_pos (And.intro hlow hhigh)]
  rfl

theorem Reads.int {low high n : Int} (hlow : low ≤ n) (hhigh : n ≤ high)
    (hmin : -9223372036854775808 ≤ n) (hmax : n ≤ 18446744073709551615) :
    Reads (Reader.int low high) (.int n) where
  opens := by
    obtain ⟨c, cs, htext, hc⟩ := signed_eq_cons n
    exact ⟨c, cs, htext, not_isBlank_of_sign hc⟩
  run rest hrest := by
    obtain ⟨c, cs, htext, hc⟩ := signed_eq_cons n
    have hread := integer_signed hlow hhigh hmin hmax hrest
    rw [compact]
    rw [htext, List.cons_append] at hread ⊢
    rw [Reader.int, bind_of_ok (peekToken?_cons (not_isBlank_of_sign hc).1 _)]
    simp only [if_pos hc]
    exact hread

instance : LawfulForm String where
  ofJson?_toJson _ := rfl
  reads := Reads.text

instance : LawfulForm Int32 where
  ofJson?_toJson n := congrArg some (Int32.ofInt_toInt n)
  reads n := by
    have hlow := n.le_toInt
    have hhigh := n.toInt_lt
    exact Reads.int (by omega) (by omega) (by omega) (by omega)

instance : LawfulForm Int64 where
  ofJson?_toJson n := congrArg some (Int64.ofInt_toInt n)
  reads n := by
    have hlow := n.le_toInt
    have hhigh := n.toInt_lt
    exact Reads.int (by omega) (by omega) (by omega) (by omega)

instance : LawfulForm UInt64 where
  ofJson?_toJson n := congrArg some (UInt64.ofNat_toNat)
  reads n := by
    have hhigh := n.toNat_lt
    exact Reads.int (by omega) (by omega) (by omega) (by omega)

instance : LawfulForm UInt16 where
  ofJson?_toJson n := congrArg some (UInt16.ofNat_toNat)
  reads n := by
    have hhigh := n.toNat_lt
    exact Reads.int (by omega) (by omega) (by omega) (by omega)

instance : LawfulForm UInt8 where
  ofJson?_toJson n := congrArg some (UInt8.ofNat_toNat)
  reads n := by
    have hhigh := n.toNat_lt
    exact Reads.int (by omega) (by omega) (by omega) (by omega)

theorem word_append (w : String) (rest : List Char) :
    word w (w.toList ++ rest) = .ok ((), rest) := by
  have hprefix : w.toList.isPrefixOf (w.toList ++ rest) = true := by simp
  rw [word, if_pos hprefix, ← String.length_toList, List.drop_left]

/-- A truth value is read back from its word. -/
theorem Reads.bool (b : Bool) : Reads Reader.bool (.bool b) where
  opens := by
    cases b with
    | false => exact ⟨'f', _, rfl, by decide, by decide⟩
    | true => exact ⟨'t', _, rfl, by decide, by decide⟩
  run rest _ := by
    cases b with
    | false =>
        have hpeek : peekToken? ("false".toList ++ rest)
            = .ok (some 'f', "false".toList ++ rest) := peekToken?_cons (by decide) _
        show Reader.bool ("false".toList ++ rest) = _
        rw [Reader.bool, bind_of_ok hpeek]
        exact bind_of_ok (word_append "false" rest)
    | true =>
        have hpeek : peekToken? ("true".toList ++ rest)
            = .ok (some 't', "true".toList ++ rest) := peekToken?_cons (by decide) _
        show Reader.bool ("true".toList ++ rest) = _
        rw [Reader.bool, bind_of_ok hpeek]
        exact bind_of_ok (word_append "true" rest)

instance : LawfulForm Bool where
  ofJson?_toJson _ := rfl
  reads := Reads.bool

/-! ## lists and options -/

instance : NeverNull String where
  head?_ne _ := by
    show some '"' ≠ some 'n'
    decide

instance : NeverNull UInt64 where
  head?_ne n := by
    obtain ⟨c, cs, htext, hc⟩ := signed_eq_cons n.toNat
    have hform : (toJson n).compact = c :: cs := htext
    rw [hform, List.head?_cons, ne_eq, Option.some.injEq]
    rintro rfl
    revert hc
    decide

/-- Nothing is read where a value is optional. -/
theorem Reads.optional_null (value : Reader Json) : Reads (Reader.optional value) .null where
  opens := ⟨'n', _, rfl, by decide, by decide⟩
  run rest _ := by
    have hpeek : peekToken? ("null".toList ++ rest) = .ok (some 'n', "null".toList ++ rest) :=
      peekToken?_cons (by decide) _
    rw [compact, Reader.optional, bind_of_ok hpeek, if_pos rfl,
      bind_of_ok (word_append "null" rest)]
    rfl

/-- A value is read where it is optional, if it does not begin like nothing. -/
theorem Reads.optional {value : Reader Json} {j : Json} (h : Reads value j)
    (hhead : j.compact.head? ≠ some 'n') : Reads (Reader.optional value) j where
  opens := h.opens
  run rest hrest := by
    obtain ⟨c, cs, htext, hc, -⟩ := h.opens
    have hread := h.run rest hrest
    rw [htext, List.cons_append] at hread ⊢
    rw [htext, List.head?_cons] at hhead
    rw [Reader.optional, bind_of_ok (peekToken?_cons hc _), if_neg hhead]
    exact hread

variable {α ν : Type} [Form α] [LawfulForm α] [Form ν] [LawfulForm ν]

instance [NeverNull α] : LawfulForm (Option α) where
  ofJson?_toJson
    | none => rfl
    | some a => by
        have hnull : toJson a ≠ .null := fun h => NeverNull.head?_ne a (by rw [h]; rfl)
        show (match toJson a with
          | .null => some none
          | j => (ofJson? j).map some) = some (some a)
        split
        · next h => exact absurd h hnull
        · rw [ofJson?_toJson, Option.map_some]
  reads
    | none => Reads.optional_null _
    | some a => (reads a).optional (NeverNull.head?_ne a)

theorem mapM_ofJson? (l : List α) : (l.map toJson).mapM ofJson? = some l := by
  induction l with
  | nil => rfl
  | cons a l ih => simp [ih]

instance : LawfulForm (List α) where
  ofJson?_toJson := mapM_ofJson?
  reads l := Reads.list fun j hj => by
    obtain ⟨a, -, rfl⟩ := List.mem_map.1 hj
    exact reads a

/-- An item takes two characters at least, one of them for what stands between items. -/
theorem two_mul_length_lt (l : List α) : 2 * l.length < (toJson l).compact.length := by
  have hopens : ∀ j ∈ l.map toJson, 1 ≤ j.compact.length := by
    rintro _ hj
    obtain ⟨a, -, rfl⟩ := List.mem_map.1 hj
    obtain ⟨c, cs, htext, -⟩ := (reads a).opens
    simp [htext]
  have hlength := mul_length_lt hopens
  rwa [List.length_map] at hlength

/-! ## maps -/

/-- The entries of a map are read back, if its keys are. -/
theorem entries?_map {κ : Type} {key? : String → Option κ} (text : κ → String)
    (h : ∀ k, key? (text k) = some k) (l : List (κ × ν)) :
    entries? key? (.record (l.map fun e => (text e.1, toJson e.2))) = some l := by
  simp only [entries?]
  induction l with
  | nil => rfl
  | cons e l ih =>
      rw [List.map_cons, List.mapM_cons, ih]
      simp [h]

instance : LawfulForm (SortedMap String ν) where
  ofJson?_toJson m := by
    have hentries : entries? some (toJson m) = some m.entries := entries?_map id (fun _ => rfl) _
    show (entries? some (toJson m)).map SortedMap.ofList = some m
    rw [hentries, Option.map_some, SortedMap.ofList_entries]
  reads m := Reads.mapWith (fun _ _ => string_quote _) fun p hp => by
    obtain ⟨e, -, rfl⟩ := List.mem_map.1 hp
    exact reads e.2

/-- No character of an integer is escaped. -/
theorem escapeChar_of_sign {c : Char} (h : c = '-' ∨ Decimal.isDigit c = true) :
    escapeChar c = [c] := by
  have hlow : ¬ c.toNat < 32 := by
    rcases h with rfl | h
    · decide
    · have hzero : '0' ≤ c := by simp_all [Decimal.isDigit]
      have : '0'.toNat ≤ c.toNat := hzero
      have : '0'.toNat = 48 := rfl
      omega
  unfold escapeChar
  split
  case h_8 => rw [if_neg hlow]
  all_goals
    revert h
    decide

/-- An integer is its own text between quotes. -/
theorem quote_text (n : Int) : quote (Decimal.text n) = '"' :: (Decimal.signed n ++ ['"']) := by
  have hplain : (Decimal.signed n).flatMap escapeChar = Decimal.signed n := by
    have hchars : ∀ c ∈ Decimal.signed n, escapeChar c = [c] := fun c hc =>
      escapeChar_of_sign (Integer.isDigit_or_minus_of_mem_signed hc).symm
    rw [List.flatMap_congr hchars, List.flatMap_singleton']
  rw [quote, Decimal.text, String.toList_ofList, hplain]

/-- An integer between quotes is read back. -/
theorem integerKey_quote {low high n : Int} (hlow : low ≤ n) (hhigh : n ≤ high)
    (hmin : -9223372036854775808 ≤ n) (hmax : n ≤ 18446744073709551615) (rest : List Char) :
    integerKey low high (quote (Decimal.text n) ++ rest) = .ok (Decimal.text n, rest) := by
  obtain ⟨c, cs, htext, hc⟩ := signed_eq_cons n
  have hread := integer_signed hlow hhigh hmin hmax (closed_cons (c := '"') (by decide) rest)
  have hquote : quote (Decimal.text n) ++ rest = '"' :: (Decimal.signed n ++ '"' :: rest) := by
    simp [quote_text]
  have hpeek (d : Char) (ds : List Char) : peek? (d :: ds) = .ok (some d, d :: ds) := rfl
  rw [hquote, integerKey, bind_of_ok (advance_cons '"' _)]
  rw [htext, List.cons_append] at hread ⊢
  rw [bind_of_ok (hpeek c _)]
  simp only [if_pos hc]
  rw [bind_of_ok hread]
  simp only []
  rw [bind_of_ok (hpeek '"' rest), if_pos rfl, bind_of_ok (advance_cons '"' rest)]
  rfl

/-- The text of an integer stands for it. -/
theorem keyInt?_text (n : Int) : keyInt? (Decimal.text n) = some n := by
  rw [keyInt?, Decimal.text, String.toList_ofList]
  cases n with
  | ofNat n =>
      rw [Decimal.signed]
      split
      · next heq =>
          have hdigit := Decimal.isDigit_of_mem_digits (n := n) (c := '-') (by simp [heq])
          cases hdigit
      · rw [Decimal.value_digits]
        rfl
  | negSucc n =>
      rw [Decimal.signed]
      show some (-(Decimal.value (Decimal.digits (n + 1)) : Int)) = _
      rw [Decimal.value_digits]
      rfl

section IntMaps

variable {κ : Type} (toInt : κ → Int) (l : List (κ × ν))

/-- The JSON of a map from integers. -/
def intMapJson : Json := .record (l.map fun e => (Decimal.text (toInt e.1), toJson e.2))

theorem entries?_intMapJson (ofInt : Int → κ) (h : ∀ k, ofInt (toInt k) = k) :
    entries? (fun k => (keyInt? k).map ofInt) (intMapJson toInt l) = some l :=
  entries?_map (fun k => Decimal.text (toInt k))
    (fun k => by rw [keyInt?_text, Option.map_some, h]) l

theorem Reads.intMap {low high : Int} (hmin : -9223372036854775808 ≤ low)
    (hmax : high ≤ 18446744073709551615) (h : ∀ k, low ≤ toInt k ∧ toInt k ≤ high) :
    Reads (Reader.intMap low high (Form.reader ν)) (intMapJson toInt l) := by
  refine Reads.mapWith (fun p hp => ?_) fun p hp => ?_
  · obtain ⟨e, -, rfl⟩ := List.mem_map.1 hp
    obtain ⟨hlow, hhigh⟩ := h e.1
    exact integerKey_quote hlow hhigh (by omega) (by omega)
  · obtain ⟨e, -, rfl⟩ := List.mem_map.1 hp
    exact reads e.2

end IntMaps

instance : LawfulForm (SortedMap Int32 ν) where
  ofJson?_toJson m := by
    have hentries := entries?_intMapJson Int32.toInt m.entries Int32.ofInt Int32.ofInt_toInt
    show (entries? _ (intMapJson Int32.toInt m.entries)).map SortedMap.ofList = some m
    rw [hentries, Option.map_some, SortedMap.ofList_entries]
  reads m := Reads.intMap Int32.toInt m.entries (by decide) (by decide) fun k => by
    have hlow := k.le_toInt
    have hhigh := k.toInt_lt
    omega

instance : LawfulForm (SortedMap UInt64 ν) where
  ofJson?_toJson m := by
    have hentries := entries?_intMapJson (fun k : UInt64 => k.toNat) m.entries
      (fun n => UInt64.ofNat n.toNat) fun k => by
        rw [Int.toNat_natCast, UInt64.ofNat_toNat]
    show (entries? _ (intMapJson (fun k : UInt64 => k.toNat) m.entries)).map SortedMap.ofList
      = some m
    rw [hentries, Option.map_some, SortedMap.ofList_entries]
  reads m := Reads.intMap (fun k : UInt64 => k.toNat) m.entries (by decide) (by decide) fun k => by
    have hhigh := k.toNat_lt
    omega

end ControlPlane.Json
