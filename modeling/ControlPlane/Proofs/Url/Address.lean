import ControlPlane.Proofs.Url.Path
import ControlPlane.Url
import Mathlib.Data.List.DropRight

/-!
# ControlPlane.Proofs.Url.Address

URLs that are put together from an address and a path behind it.  If the address is a scheme and an
authority and no more, it is read as it would be alone, and whatever stands behind the slash is read
as path, query and fragment (`parse?_behind`).
-/

namespace ControlPlane.Url

/-- What all characters of a text have can be checked one by one. -/
theorem forall_mem_of_all {p : Char → Prop} [DecidablePred p] {cs : List Char}
    (h : cs.all (fun c => decide (p c)) = true) : ∀ c ∈ cs, p c :=
  fun c hc => of_decide_eq_true (List.all_eq_true.1 h c hc)

/-! ## cleaning -/

/-- Whether a character is dropped around a URL. -/
def isBlank (c : Char) : Bool := c.toNat ≤ 32

/-- What is left of the end of a URL. -/
def cleanEnd (cs : List Char) : List Char :=
  (cs.rdropWhile isBlank).filter fun c => c ≠ '\t' ∧ c ≠ '\n' ∧ c ≠ '\r'

theorem cleanEnd_sublist (cs : List Char) : (cleanEnd cs).Sublist cs :=
  List.filter_sublist.trans (List.rdropWhile_prefix _ _).sublist

/-- Only the end of a URL is cleaned if nothing in front of it is blank. -/
theorem clean_append {front : List Char} (hne : front ≠ []) (h : ∀ c ∈ front, isBlank c = false)
    (cs : List Char) : clean (front ++ cs) = front ++ cleanEnd cs := by
  have hfront (rest : List Char) : (front ++ rest).dropWhile isBlank = front ++ rest := by
    obtain ⟨c, front, rfl⟩ := List.exists_cons_of_ne_nil hne
    rw [List.cons_append, List.dropWhile_cons_of_neg (by simp [h c List.mem_cons_self])]
  have hback : ((front ++ cs).reverse.dropWhile isBlank).reverse
      = front ++ cs.rdropWhile isBlank := by
    have hkeep : front.reverse.dropWhile isBlank = front.reverse := by
      cases hrev : front.reverse with
      | nil => rfl
      | cons c rest =>
          have hc : c ∈ front := List.mem_reverse.1 (hrev ▸ List.mem_cons_self)
          exact List.dropWhile_cons_of_neg (by simp [h c hc])
    rw [List.reverse_append, List.dropWhile_append]
    split
    · next hempty =>
        rw [hkeep, List.reverse_reverse, List.rdropWhile, List.isEmpty_iff.1 hempty]
        simp
    · rw [List.reverse_append, List.reverse_reverse, List.rdropWhile]
  have hplain : front.filter (fun c => c ≠ '\t' ∧ c ≠ '\n' ∧ c ≠ '\r') = front := by
    refine List.filter_eq_self.2 fun c hc => ?_
    have hc := h c hc
    simp only [decide_eq_true_eq]
    refine ⟨?_, ?_, ?_⟩ <;> rintro rfl <;> revert hc <;> decide
  show (((front ++ cs).dropWhile isBlank).reverse.dropWhile isBlank).reverse.filter _ = _
  rw [hfront, hback, List.filter_append, hplain]
  rfl

/-! ## authorities -/

/-- The characters of an authority: none of them ends it, or ends the name of a user. -/
def IsAuthority (cs : List Char) : Prop :=
  ∀ c ∈ cs, endsAuthority true c = false ∧ c ≠ '@'

/-- No user is found where there is none in front of the end of the authority. -/
theorem dropUser_of_takeWhile_eq {text cs : List Char} (h : IsAuthority cs)
    (htext : text.takeWhile (fun c => !endsAuthority true c) = cs) : dropUser true text = text := by
  have huser : cs.contains '@' = false := by
    simpa using fun hmem => (h '@' hmem).2 rfl
  rw [dropUser, htext]
  simp only [huser, Bool.false_eq_true, if_false]

theorem dropUser_eq_self {cs : List Char} (h : IsAuthority cs) : dropUser true cs = cs := by
  refine dropUser_of_takeWhile_eq h ?_
  rw [List.takeWhile_eq_self_iff]
  exact fun c hc => by simp [(h c hc).1]

theorem dropUser_append {cs : List Char} (h : IsAuthority cs) (rest : List Char) :
    dropUser true (cs ++ '/' :: rest) = cs ++ '/' :: rest := by
  refine dropUser_of_takeWhile_eq h ?_
  rw [List.takeWhile_append_of_pos fun c hc => by simp [(h c hc).1],
    List.takeWhile_cons_of_neg (by decide), List.append_nil]

/-- A host ends where its authority ends. -/
theorem cutHost_append {cs : List Char} (h : ∀ c ∈ cs, endsAuthority true c = false)
    (bracket : Bool) (rest : List Char) :
    cutHost true bracket (cs ++ '/' :: rest)
      = ((cutHost true bracket cs).1, (cutHost true bracket cs).2 ++ '/' :: rest) := by
  induction cs generalizing bracket with
  | nil => rfl
  | cons c cs ih =>
      have hc := h c List.mem_cons_self
      have hcs := ih fun c hc => h c (List.mem_cons_of_mem _ hc)
      rw [List.cons_append, cutHost, cutHost, hcs]
      split
      · rfl
      · rfl

/-- Behind a host there is nothing left of its authority, or a port. -/
theorem cutHost_snd {cs : List Char} (h : ∀ c ∈ cs, endsAuthority true c = false)
    (bracket : Bool) :
    (cutHost true bracket cs).2 = [] ∨ ∃ ds, (cutHost true bracket cs).2 = ':' :: ds
      ∧ ∀ c ∈ ds, endsAuthority true c = false := by
  induction cs generalizing bracket with
  | nil => exact .inl rfl
  | cons c cs ih =>
      have hcs := ih fun c hc => h c (List.mem_cons_of_mem _ hc)
      rw [cutHost]
      split
      · next hend =>
          rw [h c List.mem_cons_self, Bool.false_or, Bool.and_eq_true, decide_eq_true_eq] at hend
          exact .inr ⟨cs, by rw [hend.1], fun c hc => h c (List.mem_cons_of_mem _ hc)⟩
      · exact hcs _

/-- Behind the host of an authority nothing but the digits of a port is read. -/
theorem takeWhile_eq_of_readPort? {ds : List Char} (h : ∀ c ∈ ds, endsAuthority true c = false)
    {found : Option Nat × List Char} (hread : readPort? (':' :: ds) = some found) :
    ds.takeWhile Decimal.isDigit = ds := by
  have hsplit := List.takeWhile_append_dropWhile (p := Decimal.isDigit) (l := ds)
  have hdrop : ds.drop (ds.takeWhile Decimal.isDigit).length = ds.dropWhile Decimal.isDigit :=
    calc ds.drop (ds.takeWhile Decimal.isDigit).length
        = (ds.takeWhile Decimal.isDigit ++ ds.dropWhile Decimal.isDigit).drop
            (ds.takeWhile Decimal.isDigit).length := by rw [hsplit]
      _ = ds.dropWhile Decimal.isDigit := List.drop_left
  rw [readPort?, hdrop] at hread
  cases hleft : ds.dropWhile Decimal.isDigit with
  | nil => rwa [hleft, List.append_nil] at hsplit
  | cons c rest =>
      have hc : c ∈ ds := hsplit ▸ List.mem_append_right _ (hleft ▸ List.mem_cons_self)
      simp [hleft, h c hc] at hread

/-- A port ends where its authority ends. -/
theorem readPort?_append {behind : List Char}
    (h : behind = [] ∨ ∃ ds, behind = ':' :: ds ∧ ∀ c ∈ ds, endsAuthority true c = false)
    {port : Option Nat} {left : List Char} (hread : readPort? behind = some (port, left))
    (rest : List Char) :
    left = [] ∧ readPort? (behind ++ '/' :: rest) = some (port, '/' :: rest) := by
  rcases h with rfl | ⟨ds, rfl, h⟩
  · obtain ⟨rfl, rfl⟩ := Prod.mk.inj (Option.some.inj hread)
    exact ⟨rfl, rfl⟩
  · have htake := takeWhile_eq_of_readPort? h hread
    have htake' : (ds ++ '/' :: rest).takeWhile Decimal.isDigit = ds := by
      rw [List.takeWhile_append, if_pos (by rw [htake]), List.takeWhile_cons_of_neg (by decide),
        List.append_nil]
    have hslash : endsAuthority true '/' = true := by decide
    rw [readPort?] at hread
    rw [List.cons_append, readPort?]
    simp only [htake, htake', List.drop_length, List.drop_left, List.head?_nil, Option.any_none,
      List.head?_cons, Option.any_some, hslash, Bool.not_true, Bool.false_eq_true, if_false]
      at hread ⊢
    split at hread
    · cases hread
    · next hle =>
        obtain ⟨rfl, rfl⟩ := Prod.mk.inj (Option.some.inj hread)
        exact ⟨rfl, if_neg hle⟩

/-- An authority is read as it would be alone, and the rest as what stands behind it. -/
theorem readAuthority?_append {scheme cs : List Char} (h : IsAuthority cs) {u : Url}
    (hread : readAuthority? scheme true cs = some u) (rest : List Char) :
    readAuthority? scheme true (cs ++ '/' :: rest)
      = some (finish scheme true u.host u.port (pathBehindHost true) ('/' :: rest)) := by
  have hends : ∀ c ∈ cs, endsAuthority true c = false := fun c hc => (h c hc).1
  have hcut := cutHost_append hends false rest
  have hbehind := cutHost_snd hends false
  rw [readAuthority?, dropUser_eq_self h] at hread
  rw [readAuthority?, dropUser_append h, hcut]
  generalize cutHost true false cs = cut at hread hbehind ⊢
  obtain ⟨host, behind⟩ := cut
  simp only [true_or, and_true, if_true] at hread ⊢
  split at hread
  · cases hread
  · next hhost =>
      obtain ⟨found, hfound, hread⟩ := Option.bind_eq_some_iff.1 hread
      obtain ⟨⟨port, left⟩, hport, hread⟩ := Option.bind_eq_some_iff.1 hread
      have hport' := (readPort?_append hbehind hport rest).2
      obtain rfl := Option.some.inj hread
      rw [if_neg hhost, hfound]
      simp only [Option.bind_eq_bind, Option.bind_some, hport']
      rfl

/-! ## a path behind an address -/

theorem finish_path (scheme : List Char) (special : Bool) (host : Option Host) (port : Option Nat)
    (readPath : List Char → Path) (cs : List Char) :
    (finish scheme special host port readPath cs).path
      = readPath (cs.takeWhile fun c => c ≠ '?' ∧ c ≠ '#') := rfl

/-- The scheme of an address and the slashes behind it. -/
def httpFront : List Char := "http://".toList

/-- Behind the slashes of an address its authority is read. -/
theorem parse?_of_clean {s : String} {cs : List Char} (h : clean s.toList = httpFront ++ cs)
    (hcs : ∀ c, cs.head? = some c → endsAuthority true c = false) :
    parse? s = readAuthority? "http".toList true cs := by
  have hscheme : readScheme? (httpFront ++ cs) = some ("http".toList, '/' :: '/' :: cs) := rfl
  have hslashes : ('/' :: '/' :: cs).dropWhile (fun c => c = '/' || c = '\\') = cs := by
    cases cs with
    | nil => rfl
    | cons c cs =>
        have hc := hcs c rfl
        simp only [endsAuthority, Bool.or_eq_false_iff, Bool.true_and] at hc
        rw [List.dropWhile_cons_of_pos rfl, List.dropWhile_cons_of_pos rfl,
          List.dropWhile_cons_of_neg (by simp [hc])]
  rw [parse?, h, hscheme]
  simp only [Option.bind_eq_bind, Option.bind_some, hslashes]
  rfl

/-- An address of the network: a scheme and an authority, and no more, that make a URL. -/
structure IsAddress (address : String) : Prop where
  exists_authority : ∃ cs, address.toList = httpFront ++ cs ∧ cs ≠ [] ∧ IsAuthority cs
    ∧ ∀ c ∈ cs, isBlank c = false
  isUrl : (parse? address).isSome = true

/-- The part of a path that is left of the text behind an address: what is dropped at its end is
gone, and so is a query or a fragment. -/
def pathPart (cs : List Char) : List Char :=
  (cleanEnd cs).takeWhile fun c => c ≠ '?' ∧ c ≠ '#'

theorem pathPart_sublist (cs : List Char) : (pathPart cs).Sublist cs :=
  (List.takeWhile_sublist _).trans (cleanEnd_sublist cs)

/-- Nothing is lost of a path with no character that is dropped anywhere or ends it, if no blank
ends it either. -/
theorem pathPart_eq_self_iff {cs : List Char} :
    pathPart cs = cs ↔ (∀ c ∈ cs, c ∉ ['?', '#', '\t', '\n', '\r'])
      ∧ ∀ c, cs.getLast? = some c → isBlank c = false := by
  constructor
  · intro h
    have hend : cleanEnd cs = cs := by
      refine (cleanEnd_sublist cs).antisymm ?_
      nth_rewrite 1 [← h]
      exact List.takeWhile_sublist _
    have hblank : cs.rdropWhile isBlank = cs := by
      refine (List.rdropWhile_prefix _ _).sublist.antisymm ?_
      nth_rewrite 1 [← hend]
      exact List.filter_sublist
    rw [pathPart, hend, List.takeWhile_eq_self_iff] at h
    rw [cleanEnd, hblank, List.filter_eq_self] at hend
    refine ⟨fun c hc => ?_, fun c hc => ?_⟩
    · have hmark := h c hc
      have hkept := hend c hc
      simp_all
    · have hne : cs ≠ [] := by
        rintro rfl
        cases hc
      rw [List.getLast?_eq_some_getLast hne, Option.some.injEq] at hc
      simpa [hc] using List.rdropWhile_eq_self_iff.1 hblank hne
  · intro h
    obtain ⟨hchars, hlast⟩ := h
    have hblank : cs.rdropWhile isBlank = cs := List.rdropWhile_eq_self_iff.2 fun hne => by
      simpa using hlast _ (List.getLast?_eq_some_getLast hne)
    have hend : cleanEnd cs = cs := by
      rw [cleanEnd, hblank, List.filter_eq_self]
      intro c hc
      have hmark := hchars c hc
      simp_all
    rw [pathPart, hend, List.takeWhile_eq_self_iff]
    intro c hc
    have hmark := hchars c hc
    simp_all

/-- **A path behind an address**: it is read up to a query or a fragment, and what it is put behind
stays as it was. -/
theorem parse?_append {address : String} (h : IsAddress address) (front : List Char)
    (hfront : ∀ c ∈ front, isBlank c = false ∧ c ≠ '?' ∧ c ≠ '#') (cs : List Char) :
    ∃ u, parse? (address ++ String.ofList ('/' :: front ++ cs)) = some u ∧ u.isHttp = true
      ∧ u.path = Path.parse true (front ++ pathPart cs) := by
  obtain ⟨authority, haddress, hne, hplain, hblank⟩ := h.exists_authority
  obtain ⟨base, hbase⟩ := Option.isSome_iff_exists.1 h.isUrl
  have hscheme : ∀ c ∈ httpFront, isBlank c = false := forall_mem_of_all (by decide)
  have hhead (rest : List Char) :
      ∀ c, (authority ++ rest).head? = some c → endsAuthority true c = false := by
    obtain ⟨c, authority, rfl⟩ := List.exists_cons_of_ne_nil hne
    intro d hd
    obtain rfl := Option.some.inj hd
    exact (hplain _ List.mem_cons_self).1
  -- The address alone.
  have hread : readAuthority? "http".toList true authority = some base := by
    have hclean : clean address.toList = httpFront ++ authority := by
      have hall : ∀ c ∈ httpFront ++ authority, isBlank c = false := fun c hc =>
        (List.mem_append.1 hc).elim (hscheme c) (hblank c)
      have := clean_append (List.append_ne_nil_of_left_ne_nil (by decide) authority) hall []
      rw [List.append_nil, ← haddress] at this
      rw [this, haddress]
      exact List.append_nil _
    rw [← parse?_of_clean hclean (by simpa using hhead []), hbase]
  -- The address with the path behind it.
  have hclean : clean (address ++ String.ofList ('/' :: front ++ cs)).toList
      = httpFront ++ (authority ++ '/' :: (front ++ cleanEnd cs)) := by
    have hall : ∀ c ∈ httpFront ++ authority ++ '/' :: front, isBlank c = false := by
      intro c hc
      rcases List.mem_append.1 hc with hc | hc
      · exact (List.mem_append.1 hc).elim (hscheme c) (hblank c)
      · rcases List.mem_cons.1 hc with rfl | hc
        · decide
        · exact (hfront c hc).1
    have := clean_append (List.append_ne_nil_of_right_ne_nil _ (List.cons_ne_nil _ _)) hall cs
    rw [String.toList_append, String.toList_ofList, haddress, ← List.append_assoc, this]
    simp only [List.append_assoc, List.cons_append]
  have hpath : ('/' :: (front ++ cleanEnd cs)).takeWhile (fun c => c ≠ '?' ∧ c ≠ '#')
      = '/' :: (front ++ pathPart cs) := by
    rw [List.takeWhile_cons_of_pos (by decide),
      List.takeWhile_append_of_pos fun c hc => by simpa using (hfront c hc).2]
    rfl
  have hurl := readAuthority?_append hplain hread (front ++ cleanEnd cs)
  refine ⟨_, (parse?_of_clean hclean (hhead _)).trans hurl, rfl, ?_⟩
  rw [finish_path, hpath]
  rfl

end ControlPlane.Url
