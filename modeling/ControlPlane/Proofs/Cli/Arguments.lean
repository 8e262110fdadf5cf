import ControlPlane.Cli.Arguments
import Mathlib.Data.List.Forall2

/-!
# ControlPlane.Proofs.Cli.Arguments

What is read where the value of a flag is expected: an argument that looks like no flag is the
value (`Progress.read_value`), and one that does stops the program (`Progress.read_flag`).

A value that is not to be taken for a flag is given behind an equals sign.  Either way the flag is
noted with its value, whatever that is (`Verb.readFrom_gives`), and at the end a level holds what it
was given (`Verb.close_of_settles`).
-/

namespace ControlPlane.Cli

/-- Whether an argument looks like flags: a dash alone does not. -/
def isFlag (arg : String) : Bool :=
  match arg.toList with
  | '-' :: _ :: _ => true
  | _ => false

namespace Progress

variable {p : Progress} {f : Flag} (hclosed : p.closed = false)
  (hpending : p.pending = some (f, none)) {arg : String} (flags : List Flag)
include hclosed hpending

/-- An argument that looks like no flag is the value of the flag in front of it. -/
theorem read_value (h : isFlag arg = false) :
    p.read flags arg = .ok { p with pending := some (f, some arg) } := by
  rw [isFlag] at h
  rw [read, hclosed]
  generalize arg.toList = cs at h ⊢
  split
  · next hclosed => cases hclosed
  · cases h
  · cases h
  · cases h
  · simp only [hpending]

/-- Flags are not read where a value is expected.  Two dashes are, and end the flags. -/
theorem read_flag (h : isFlag arg = true) :
    p.read flags arg = .error .usage ∨ p.read flags arg = .ok { p with closed := true } := by
  have hsettle : p.settle = .error .usage := by rw [settle, hpending]
  have hhelp : p.help = .error .usage := by
    rw [help, hsettle]
    rfl
  have hattach (f : Flag) (value : String) : p.attach f value = .error .usage := by
    rw [attach, hsettle]
    rfl
  have hawait (f : Flag) : p.await f = .error .usage := by
    rw [await, hsettle]
    rfl
  have hlong (name : String) (value : Option String) :
      p.readLong flags name value = .error .usage := by
    unfold readLong
    simp only [hhelp, hattach, hawait]
    repeat' split
    all_goals rfl
  have hshort (c : Char) (cs : List Char) : p.readShort flags (c :: cs) = .error .usage := by
    rw [readShort, hhelp]
    simp only [hattach, hawait]
    repeat' split
    all_goals rfl
  rw [isFlag] at h
  rw [read, hclosed]
  generalize arg.toList = cs at h ⊢
  split
  · next hclosed => cases hclosed
  · exact .inr rfl
  · exact .inl (hlong _ _)
  · exact .inl (hshort _ _)
  · next hnot =>
      split at h
      · exact (hnot _ _ rfl).elim
      · cases h

end Progress

/-! ## flags with their values -/

/-- Arguments give a flag a value: behind an equals sign, or as an argument that looks like no
flag. -/
inductive Gives (flag value : String) : List String → Prop
  | attached : Gives flag value ["--" ++ flag ++ "=" ++ value]
  | apart (h : isFlag value = false) : Gives flag value ["--" ++ flag, value]

/-- A flag with a value can be told from everything else that a verb knows. -/
structure Verb.HasFlag (v : Verb) (f : Flag) : Prop where
  find? : v.flags.find? (·.name == f.name) = some f
  arity : f.arity ≠ .nothing
  ne_help : f.name ≠ "help"
  nonempty : f.name.toList ≠ []
  noEquals : '=' ∉ f.name.toList
  notFlag : ∀ below ∈ v.verbs, isFlag below.name = false

namespace Progress

/-- What has been read of a level comes to these values, and is open to more. -/
structure Settles (p : Progress) (given : List (String × String)) : Prop where
  notClosed : p.closed = false
  notAwaiting : p.awaits = false
  settle : p.settle = .ok { given }

theorem settles_empty : Settles {} [] := ⟨rfl, rfl, rfl⟩

variable {p : Progress} {given : List (String × String)} {f : Flag} {value : String}

theorem give_of_valid (hvalid : f.valid value = true)
    (hnew : f.arity = .many ∨ f.name ∉ given.map Prod.fst) :
    give { given } f value = .ok { given := given ++ [(f.name, value)] } := by
  rw [give, if_neg]
  rintro (hinvalid | ⟨honce, hgiven⟩)
  · simp [hvalid] at hinvalid
  · obtain ⟨e, he, heq⟩ := List.any_eq_true.1 hgiven
    exact hnew.elim honce fun hnot => hnot (List.mem_map.2 ⟨e, he, by simpa using heq⟩)

/-- A value that was given, in either way, is among those that have been read. -/
theorem exists_settles (hvalid : f.valid value = true)
    (hnew : f.arity = .many ∨ f.name ∉ given.map Prod.fst) (hp : p.Settles given) :
    (∃ p', p.attach f value = .ok p' ∧ p'.Settles (given ++ [(f.name, value)]))
      ∧ ∃ p', p.await f = .ok p' ∧ p'.awaits = true ∧ p'.closed = false
        ∧ p'.pending = some (f, none)
        ∧ Settles { p' with pending := some (f, some value) } (given ++ [(f.name, value)]) := by
  have hgive := give_of_valid hvalid hnew
  refine ⟨⟨{ given := given ++ [(f.name, value)] }, ?_, rfl, rfl, rfl⟩,
    { given, pending := some (f, none) }, ?_, rfl, rfl, rfl, rfl, rfl, hgive⟩
  · rw [attach, hp.settle]
    exact hgive
  · rw [await, hp.settle]
    rfl

/-- Behind two dashes the name of a flag is read, up to an equals sign. -/
theorem read_long (flags : List Flag) {arg : String} {cs : List Char} (h : p.closed = false)
    (htext : arg.toList = '-' :: '-' :: cs) (hne : cs ≠ []) :
    p.read flags arg = p.readLong flags (String.ofList (cs.takeWhile (· ≠ '=')))
      (if cs.contains '=' then
        some (String.ofList (cs.drop ((cs.takeWhile (· ≠ '=')).length + 1))) else none) := by
  obtain ⟨c, cs, rfl⟩ := List.exists_cons_of_ne_nil hne
  rw [read, h, htext]
  rfl

section Names

variable {v : Verb} (hf : v.HasFlag f)
include hf

/-- A name goes up to an equals sign. -/
theorem takeWhile_name (rest : List Char) :
    (f.name.toList ++ '=' :: rest).takeWhile (· ≠ '=') = f.name.toList
      ∧ f.name.toList.takeWhile (· ≠ '=') = f.name.toList := by
  have hname : ∀ c ∈ f.name.toList, decide (c ≠ '=') = true := fun c hc => by
    simpa using fun heq : c = '=' => hf.noEquals (heq ▸ hc)
  have hself : f.name.toList.takeWhile (· ≠ '=') = f.name.toList := by
    have hnil : (f.name.toList ++ []).takeWhile (· ≠ '=') = f.name.toList ++ [] :=
      List.takeWhile_append_of_pos hname
    rwa [List.append_nil] at hnil
  refine ⟨?_, hself⟩
  rw [List.takeWhile_append_of_pos hname, List.takeWhile_cons_of_neg (by simp), List.append_nil]

theorem readLong_name (value : Option String) :
    p.readLong v.flags f.name value
      = match value with
        | some value => p.attach f value
        | none => p.await f := by
  unfold readLong
  rw [if_neg hf.ne_help]
  simp only [hf.find?]
  cases value with
  | none => exact if_neg hf.arity
  | some value => exact if_neg hf.arity

/-- A flag with its value behind an equals sign is taken note of at once. -/
theorem read_attached (h : p.closed = false) :
    p.read v.flags ("--" ++ f.name ++ "=" ++ value) = p.attach f value := by
  have htext : ("--" ++ f.name ++ "=" ++ value).toList
      = '-' :: '-' :: (f.name.toList ++ '=' :: value.toList) := by simp
  have hdrop : (f.name.toList ++ '=' :: value.toList).drop (f.name.toList.length + 1)
      = value.toList := by simp
  rw [read_long v.flags h htext (by simp), (takeWhile_name hf _).1, if_pos (by simp), hdrop,
    String.ofList_toList, String.ofList_toList, readLong_name hf]

/-- A flag alone waits for its value. -/
theorem read_apart (h : p.closed = false) : p.read v.flags ("--" ++ f.name) = p.await f := by
  have htext : ("--" ++ f.name).toList = '-' :: '-' :: f.name.toList := by simp
  rw [read_long v.flags h htext hf.nonempty, (takeWhile_name hf []).2,
    if_neg (by simpa using hf.noEquals), String.ofList_toList, readLong_name hf]

end Names

end Progress

/-! ## verbs -/

namespace Verb

variable {v : Verb} {p : Progress} {given : List (String × String)}

/-- An argument is read as one of flags, if it looks like one or a value is expected. -/
theorem readFrom_cons {arg : String} (hverbs : ∀ below ∈ v.verbs, isFlag below.name = false)
    (h : p.awaits = true ∨ isFlag arg = true) (rest : List String) :
    v.readFrom p (arg :: rest) = (do v.readFrom (← p.read v.flags arg) rest) := by
  rw [readFrom]
  split
  · rfl
  · next hnot =>
    have harg : isFlag arg = true := h.resolve_left fun hawaits => hnot (.inl hawaits)
    have hfind : v.find? arg = none := List.find?_eq_none.2 fun below hbelow heq => by
      have hname : below.name = arg := by simpa using heq
      rw [← hname, hverbs below hbelow] at harg
      cases harg
    have hhelp : ¬ (arg = helpName ∧ (!v.verbs.isEmpty) = true) := by
      rintro ⟨rfl, -⟩
      revert harg
      decide
    rw [hfind]
    exact if_neg hhelp

/-- **Flags with values**: however a flag was given its value, that is noted. -/
theorem readFrom_gives {f : Flag} (hf : v.HasFlag f) {value : String}
    (hvalid : f.valid value = true) (hnew : f.arity = .many ∨ f.name ∉ given.map Prod.fst)
    {args : List String} (hargs : Gives f.name value args) (hp : p.Settles given) :
    ∃ p' : Progress, p'.Settles (given ++ [(f.name, value)])
      ∧ ∀ rest, v.readFrom p (args ++ rest) = v.readFrom p' rest := by
  have hdashes (text : String) : isFlag ("--" ++ text) = true := by
    have htext : ("--" ++ text).toList = '-' :: '-' :: text.toList := by simp
    rw [isFlag, htext]
    rfl
  obtain ⟨⟨p', hattach, hsettles⟩, q, hawait, hawaits, hclosed, hpending, hvalue⟩ :=
    Progress.exists_settles hvalid hnew hp
  cases hargs with
  | attached =>
      refine ⟨p', hsettles, fun rest => ?_⟩
      have hread : p.read v.flags ("--" ++ f.name ++ "=" ++ value) = .ok p' :=
        (Progress.read_attached hf hp.notClosed).trans hattach
      have hlooks : isFlag ("--" ++ f.name ++ "=" ++ value) = true := by
        rw [String.append_assoc, String.append_assoc]
        exact hdashes _
      rw [List.singleton_append, readFrom_cons hf.notFlag (.inr hlooks), hread]
      rfl
  | apart hplain =>
      refine ⟨_, hvalue, fun rest => ?_⟩
      have hread : p.read v.flags ("--" ++ f.name) = .ok q :=
        (Progress.read_apart hf hp.notClosed).trans hawait
      rw [List.cons_append, readFrom_cons hf.notFlag (.inr (hdashes _)), hread]
      show v.readFrom q ([value] ++ rest) = _
      rw [List.singleton_append, readFrom_cons hf.notFlag (.inl hawaits),
        Progress.read_value hclosed hpending v.flags hplain]
      rfl

/-- A flag that may be repeated notes all its values, in order. -/
theorem readFrom_gives_all {f : Flag} (hf : v.HasFlag f) (hmany : f.arity = .many)
    {values : List String} (hvalid : ∀ value ∈ values, f.valid value = true)
    {args : List (List String)} (hargs : List.Forall₂ (Gives f.name) values args)
    (hp : p.Settles given) :
    ∃ p' : Progress, p'.Settles (given ++ values.map (f.name, ·))
      ∧ ∀ rest, v.readFrom p (args.flatten ++ rest) = v.readFrom p' rest := by
  induction hargs generalizing p given with
  | nil => exact ⟨p, by simpa using hp, fun rest => rfl⟩
  | @cons value arg values args harg _ ih =>
      obtain ⟨p', hp', hread⟩ := readFrom_gives hf (hvalid value List.mem_cons_self)
        (.inl hmany) harg hp
      obtain ⟨q, hq, hrest⟩ := ih (fun value h => hvalid value (List.mem_cons_of_mem _ h)) hp'
      refine ⟨q, by simpa using hq, fun rest => ?_⟩
      rw [List.flatten_cons, List.append_assoc, hread, hrest]

/-- A level ends with what it was given, if all that it needs is there. -/
theorem close_of_settles (hp : p.Settles given)
    (hall : ∀ f ∈ v.flags, f.required = true → f.name ∈ given.map Prod.fst) :
    v.close p = .ok ⟨v.name, given⟩ := by
  have hmissing : v.flags.any (fun f => f.required && !given.any (·.1 == f.name)) = false := by
    refine List.any_eq_false.2 fun f hf => ?_
    cases hrequired : f.required with
    | false => simp
    | true =>
        obtain ⟨e, he, heq⟩ := List.mem_map.1 (hall f hf hrequired)
        have hgiven : given.any (·.1 == f.name) = true :=
          List.any_eq_true.2 ⟨e, he, by simpa using heq⟩
        simp [hgiven]
  rw [close, hp.settle]
  show (if v.flags.any (fun f => f.required && !given.any (·.1 == f.name)) then _ else _) = _
  rw [hmissing]
  rfl

/-- A verb below is read by itself, and the level above it is closed behind it. -/
theorem readFrom_below {arg : String} {below : Verb} (hbelow : v.find? arg = some below)
    (hp : p.Settles given)
    (hall : ∀ f ∈ v.flags, f.required = true → f.name ∈ given.map Prod.fst)
    (rest : List String) :
    v.readFrom p (arg :: rest)
      = (do return ⟨v.name, given⟩ :: (← below.readFrom {} rest)) := by
  have hopen : ¬ (p.awaits = true ∨ p.closed = true) := by
    simp [hp.notAwaiting, hp.notClosed]
  rw [readFrom, if_neg hopen, hbelow, close_of_settles hp hall]
  rfl

end Verb

end ControlPlane.Cli
