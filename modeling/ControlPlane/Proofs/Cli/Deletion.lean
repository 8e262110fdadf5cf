import ControlPlane.Cli.Control
import ControlPlane.Proofs.Api.Route
import ControlPlane.Proofs.Cli.Arguments
import ControlPlane.Proofs.Url.Address

/-!
# ControlPlane.Proofs.Cli.Deletion

Which storage group is deleted when an operator names one.  The name goes into the path of a URL as
it is, so it arrives only if a URL does nothing to it: `IsPathName` says which names these are, and
`deletes_iff` that they are the only ones.  Of any other name a part arrives, and what that stands
for is shorter.
-/

namespace ControlPlane.Control

open Api Cli Http Url

/-- The arguments with which an operator has a storage group deleted. -/
def deletion (address name : String) : List String :=
  ["--addr", address, "storage-group", "delete", "--name", name]

/-- The names of storage groups that a URL leaves as they are. -/
structure IsPathName (name : String) : Prop where
  /-- It is not taken for flags, as it follows one. -/
  notFlag : isFlag name = false
  nonempty : name ≠ ""
  /-- Slashes part names, question and number signs end paths, tabs and line ends are dropped. -/
  noMark : ∀ c ∈ name.toList, c ∉ ['/', '\\', '?', '#', '\t', '\n', '\r']
  /-- Blanks at the end of a URL are dropped. -/
  noBlankEnd : ∀ c, name.toList.getLast? = some c → isBlank c = false
  /-- Steps are taken. -/
  notStep : name ≠ "." ∧ name ≠ ".."
  /-- No percent sign has two digits behind it. -/
  decodes : Percent.decodeText? name.toList = some name

/-! ## the arguments -/

/-- The flag of the address. -/
def addressFlag : Flag := { name := "addr", short := some 'a' }

/-- The flag of the name. -/
def nameFlag : Flag := { name := "name", short := some 'n', required := true }

/-- The verb for deleting a storage group. -/
def deleteVerb : Verb := { name := "delete", flags := [nameFlag] }

/-- Behind the address the verbs are read, and the address is settled after them. -/
theorem readArguments_deletion {address : String} (haddress : isFlag address = false)
    (name : String) :
    readArguments (deletion address name) = (do
      let levels ← deleteVerb.readFrom {} ["--name", name]
      match Action.ofLevels? (⟨"storage-group", []⟩ :: levels) with
      | some action => return (address, action)
      | none => throw .usage) := by
  have hgiven := Progress.read_value (p := { pending := some (addressFlag, none) }) rfl rfl
    program.flags haddress
  have hread : program.read (deletion address name) = (do
      let levels ← deleteVerb.readFrom {} ["--name", name]
      return ⟨"control", [("addr", address)]⟩ :: ⟨"storage-group", []⟩ :: levels) := by
    show (do program.readFrom (← Progress.read { pending := some (addressFlag, none) }
      program.flags address) ["storage-group", "delete", "--name", name]) = _
    rw [hgiven]
    show (do
      let levels ← (do
        let levels ← deleteVerb.readFrom {} ["--name", name]
        return Level.mk "storage-group" [] :: levels)
      return Level.mk "control" [("addr", address)] :: levels) = _
    cases deleteVerb.readFrom {} ["--name", name] <;> rfl
  rw [readArguments, hread]
  cases deleteVerb.readFrom {} ["--name", name] <;> rfl

/-- A name that looks like no flag is taken for the name of the storage group. -/
theorem readFrom_name {name : String} (h : isFlag name = false) :
    deleteVerb.readFrom {} ["--name", name] = .ok [⟨"delete", [("name", name)]⟩] := by
  have hgiven := Progress.read_value (p := { pending := some (nameFlag, none) }) rfl rfl
    deleteVerb.flags h
  show (do deleteVerb.readFrom (← Progress.read { pending := some (nameFlag, none) }
    deleteVerb.flags name) []) = _
  rw [hgiven]
  rfl

/-- A name that looks like flags is not taken at all. -/
theorem readFrom_flag {name : String} (h : isFlag name = true) :
    deleteVerb.readFrom {} ["--name", name] = .error .usage := by
  have hgiven := Progress.read_flag (p := { pending := some (nameFlag, none) }) rfl rfl
    deleteVerb.flags h
  show (do deleteVerb.readFrom (← Progress.read { pending := some (nameFlag, none) }
    deleteVerb.flags name) []) = _
  rcases hgiven with hgiven | hgiven
  · rw [hgiven]
    rfl
  · rw [hgiven]
    rfl

/-! ## the path -/

/-- How a backslash in a path is read. -/
def slash (c : Char) : Char := if c = '\\' then '/' else c

theorem slash_eq_self {c : Char} (h : slash c ≠ '/') : slash c = c := by
  rw [slash] at h ⊢
  split at h
  · exact absurd rfl h
  · next hc => rw [if_neg hc]

/-- The path of all storage groups, without slashes. -/
def groupsName : List Char := "storage-groups".toList

/-- The parts of a name, as a path has them. -/
def parts (name : String) : List (List Char) := splitAt '/' ((pathPart name.toList).map slash)

/-- The names in the path of the request that deletes a storage group. -/
def pathNames (name : String) : List (List Char) :=
  Path.walk [] ((groupsName :: parts name).map (Percent.encode Path.keeps))

/-- No name of the path holds a mark that parts or ends paths. -/
theorem not_mem_of_mem_pathNames {name : String} {n : List Char} (h : n ∈ pathNames name) :
    '/' ∉ n ∧ '?' ∉ n ∧ '#' ∉ n := by
  rcases Path.mem_or_eq_nil_of_mem_walk h with h | rfl
  · rw [List.nil_append, List.mem_map] at h
    obtain ⟨part, hpart, rfl⟩ := h
    have hslash : '/' ∉ part := by
      rcases List.mem_cons.1 hpart with rfl | hpart
      · decide
      · intro hmem
        exact (sublist_of_mem_splitAt (fun c => slash_eq_self) hpart).2 '/' hmem rfl
    refine ⟨fun hmem => ?_, fun hmem => ?_, fun hmem => ?_⟩
    · exact hslash (Path.mem_of_mem_encode hmem (by decide) (by decide)).1
    · exact absurd (Path.mem_of_mem_encode hmem (by decide) (by decide)).2 (by decide)
    · exact absurd (Path.mem_of_mem_encode hmem (by decide) (by decide)).2 (by decide)
  · exact ⟨List.not_mem_nil, List.not_mem_nil, List.not_mem_nil⟩

/-- The path of a target is the path of its URL, if no mark ends it sooner. -/
theorem pathOf_target {u : Url} (h : ∀ c ∈ u.path.text, c ≠ '?' ∧ c ≠ '#') :
    pathOf u.target = u.path.text := by
  have hquery : (marked '?' u.query).takeWhile (fun c => c ≠ '?' ∧ c ≠ '#') = [] := by
    cases u.query with
    | none => rfl
    | some query => rfl
  rw [pathOf, target, String.toList_ofList,
    List.takeWhile_append_of_pos fun c hc => by simpa using h c hc, hquery, List.append_nil]

/-- The name goes into the path behind that of all storage groups, and nothing else is sent. -/
theorem exists_sending {address : String} (haddress : IsAddress address) (name : String) :
    ∃ s, (Action.deleteStorageGroup name).sending address = .ok s ∧ s.request.method = "DELETE"
      ∧ pathOf s.request.target = (pathNames name).flatMap ('/' :: ·) := by
  obtain ⟨u, hparse, hhttp, hpath⟩ :=
    parse?_append haddress (groupsName ++ ['/']) (forall_mem_of_all (by decide))
      name.toList
  have htext : "/storage-groups/" ++ name
      = String.ofList ('/' :: (groupsName ++ ['/']) ++ name.toList) := by
    have hfront : String.ofList ('/' :: (groupsName ++ ['/'])) = "/storage-groups/" := by decide
    rw [String.ofList_append, String.ofList_toList, hfront]
  have hnames : u.path = .names (pathNames name) := by
    have hparts : splitAt '/' ((groupsName ++ ['/'] ++ pathPart name.toList).map slash)
        = groupsName :: parts name := by
      rw [List.append_assoc, List.map_append, List.singleton_append, List.map_cons]
      exact splitAt_append (by decide) _
    rw [hpath, pathNames, ← hparts]
    rfl
  have htarget : pathOf u.target = (pathNames name).flatMap ('/' :: ·) := by
    rw [pathOf_target, hnames]
    · rfl
    · intro c hc
      rw [hnames, Path.text, List.mem_flatMap] at hc
      obtain ⟨n, hn, hc⟩ := hc
      obtain ⟨-, hquery, hfragment⟩ := not_mem_of_mem_pathNames hn
      rcases List.mem_cons.1 hc with rfl | hc
      · decide
      · exact ⟨fun h => hquery (h ▸ hc), fun h => hfragment (h ▸ hc)⟩
  refine ⟨⟨u, ⟨"DELETE", u.target, none, []⟩⟩, ?_, rfl, htarget⟩
  show Ask.sending ⟨"DELETE", "/storage-groups/" ++ name, none⟩ address = _
  rw [Ask.sending, htext, hparse]
  simp only [hhttp, Bool.not_true, Bool.false_eq_true, if_false]
  rfl

/-! ## what arrives -/

section Arrival

variable {s : Sending} {name : String} (hmethod : s.request.method = "DELETE")
  (hpath : pathOf s.request.target = (pathNames name).flatMap ('/' :: ·))
include hmethod hpath

/-- What arrives is what some part of the name stands for. -/
theorem exists_part_of_call {c : Command} {done : Json}
    (h : Api.call s.request = .ok (.submit c done)) :
    ∃ part ∈ parts name, ∃ other, Percent.decodeText? part = some other
      ∧ c = .deleteStorageGroup other
      ∧ pathNames name = [groupsName, Percent.encode Path.keeps part]
      ∧ Percent.encode Path.keeps part ≠ [] := by
  obtain ⟨n, other, hgroup, hne, hslash, hother, hcall⟩ := (call_delete_eq_ok_iff hmethod).1 h
  have hnames : pathNames name = [groupsName, n] := by
    have htext : (pathNames name).flatMap ('/' :: ·) = [groupsName, n].flatMap ('/' :: ·) := by
      have hgroups : storageGroupPath = '/' :: (groupsName ++ ['/']) := by decide
      rw [← hpath, hgroup, hgroups]
      simp only [List.flatMap_cons, List.flatMap_nil, List.append_nil, List.cons_append,
        List.append_assoc, List.nil_append]
    have hplain : ∀ m ∈ [groupsName, n], '/' ∉ m :=
      List.forall_mem_cons.2 ⟨by decide, List.forall_mem_cons.2 ⟨hslash, List.forall_mem_nil _⟩⟩
    have hsplit := congrArg (splitAt '/') htext
    rw [Path.splitAt_text fun n hn => (not_mem_of_mem_pathNames hn).1,
      Path.splitAt_text hplain] at hsplit
    exact (List.cons.inj hsplit).2
  -- A path that ends in a step ends in an empty name, so this one does not.
  have hmem : n ∈ (parts name).map (Percent.encode Path.keeps) := by
    rcases Path.walk_sublist [] ((groupsName :: parts name).map (Percent.encode Path.keeps)) with
      hsub | ⟨front, -, heq⟩
    · rw [← pathNames, hnames, List.nil_append, List.map_cons] at hsub
      exact hsub.tail.subset List.mem_cons_self
    · have hlast := congrArg List.getLast? (hnames.symm.trans heq)
      rw [List.getLast?_concat] at hlast
      exact absurd (Option.some.inj hlast) hne
  obtain ⟨part, hpart, rfl⟩ := List.mem_map.1 hmem
  rw [Path.decodeText?_encode_keeps] at hother
  exact ⟨part, hpart, other, hother, (Call.submit.inj hcall).1, hnames, hne⟩

end Arrival

/-- What a part of a name stands for has fewer bytes than the name, unless it is the name. -/
theorem eq_or_length_lt_of_mem_parts {name other : String} {part : List Char}
    (hpart : part ∈ parts name) (hother : Percent.decodeText? part = some other) :
    (part = name.toList ∧ other = name)
      ∨ (Utf8.encode other).length < (Utf8.encode name).length := by
  have hsub : part.Sublist name.toList :=
    (sublist_of_mem_splitAt (fun c => slash_eq_self) hpart).1.trans (pathPart_sublist _)
  have hbytes : Utf8.encode other = Percent.decode (Utf8.encode (String.ofList part)) :=
    (Utf8.decode?_eq_some_iff.1 hother).symm
  have hle := Percent.length_decode_le (Utf8.encode (String.ofList part))
  rcases Nat.lt_or_ge (Utf8.encode other).length (Utf8.encode name).length with hlt | hge
  · exact .inr hlt
  · have heq : part = name.toList := by
      refine Url.eq_of_sublist_of_length_le hsub ?_
      rw [String.ofList_toList, ← hbytes] at *
      exact hge.trans hle
    subst heq
    rw [String.ofList_toList] at hbytes
    rw [hbytes] at hge
    rw [Percent.decode_eq_self hge] at hbytes
    refine .inl ⟨rfl, ?_⟩
    have := congrArg Utf8.decode? hbytes
    rw [Utf8.decode?_encode, Utf8.decode?_encode] at this
    exact Option.some.inj this

/-- A name that is a part of its own path loses nothing. -/
theorem noMark_of_mem_parts {name : String} (h : name.toList ∈ parts name) :
    (∀ c ∈ name.toList, c ∉ ['/', '\\', '?', '#', '\t', '\n', '\r'])
      ∧ ∀ c, name.toList.getLast? = some c → isBlank c = false := by
  obtain ⟨hsub, hslash⟩ := sublist_of_mem_splitAt (fun c => slash_eq_self) h
  have hself := hsub.antisymm (pathPart_sublist name.toList)
  obtain ⟨hchars, hlast⟩ := pathPart_eq_self_iff.1 hself.symm
  refine ⟨fun c hc => ?_, hlast⟩
  have hmark := hchars c hc
  have hsep := hslash c hc
  have hslash' : c ≠ '/' := by
    rintro rfl
    exact hsep rfl
  have hback : c ≠ '\\' := by
    rintro rfl
    exact hsep rfl
  simp only [List.mem_cons, List.not_mem_nil, or_false, not_or] at hmark ⊢
  exact ⟨hslash', hback, hmark⟩

/-- A name that a URL leaves as it is stands in the path of its own storage group. -/
theorem IsPathName.pathNames_eq {name : String} (h : IsPathName name) :
    pathNames name = [groupsName, Percent.encode Path.keeps name.toList] := by
  have hself : pathPart name.toList = name.toList := by
    refine pathPart_eq_self_iff.2 ⟨fun c hc => ?_, h.noBlankEnd⟩
    have hmark := h.noMark c hc
    simp only [List.mem_cons, List.not_mem_nil, or_false, not_or] at hmark ⊢
    exact hmark.2.2
  have hmap : name.toList.map slash = name.toList :=
    (List.map_congr_left fun c hc => by
      have hmark := h.noMark c hc
      simp only [List.mem_cons, List.not_mem_nil, or_false, not_or] at hmark
      exact if_neg hmark.2.1).trans (List.map_id _)
  have hslash : '/' ∉ name.toList := fun hmem => h.noMark '/' hmem List.mem_cons_self
  have hparts : parts name = [name.toList] := by
    rw [parts, hself, hmap, splitAt_of_not_mem hslash]
  have hstays : Path.stays (Percent.encode Path.keeps name.toList) ≠ true := fun hstep =>
    h.notStep.1 (Path.eq_of_stays_encode hstep h.decodes)
  have hup : Path.goesUp (Percent.encode Path.keeps name.toList) ≠ true := fun hstep =>
    h.notStep.2 (Path.eq_of_goesUp_encode hstep h.decodes)
  have hgroups : Percent.encode Path.keeps groupsName = groupsName := by decide
  rw [pathNames, hparts, List.map_cons, List.map_cons, List.map_nil, hgroups, Path.walk,
    if_neg (by decide), if_neg (by decide), Path.walk, if_neg hup, if_neg hstays]
  · rfl
  · exact List.cons_ne_nil _ _

/-! ## from the arguments to the server -/

/-- The program sends a request for every name that does not look like flags, and for no other. -/
theorem exists_plan {address : String} (haddress : IsAddress address) (name : String) :
    (isFlag name = true → ∀ s, plan (deletion address name) ≠ .ok s)
      ∧ (isFlag name = false → ∃ s, plan (deletion address name) = .ok s
        ∧ s.request.method = "DELETE"
        ∧ pathOf s.request.target = (pathNames name).flatMap ('/' :: ·)) := by
  have haddress' : isFlag address = false := by
    obtain ⟨cs, htext, -⟩ := haddress.exists_authority
    rw [isFlag, htext]
    rfl
  have hread := readArguments_deletion haddress' name
  constructor
  · intro hflag s hplan
    rw [readFrom_flag hflag] at hread
    rw [plan, hread] at hplan
    cases hplan
  · intro hflag
    obtain ⟨s, hsending, hmethod, hpath⟩ := exists_sending haddress name
    rw [readFrom_name hflag] at hread
    have haction : readArguments (deletion address name)
        = .ok (address, .deleteStorageGroup name) := hread
    refine ⟨s, ?_, hmethod, hpath⟩
    rw [plan, haction]
    simp only [hsending]

/-- **Deleting a storage group by name.**  The storage group that an operator names is the one that
is deleted if and only if a URL leaves its name as it is.  If anything else arrives, it deletes a
storage group with a shorter name. -/
theorem deletes_iff {address : String} (haddress : IsAddress address) (name : String) :
    ((∃ s done, plan (deletion address name) = .ok s
        ∧ Api.call s.request = .ok (.submit (.deleteStorageGroup name) done)) ↔ IsPathName name)
      ∧ ∀ s c done, plan (deletion address name) = .ok s →
        Api.call s.request = .ok (.submit c done) →
          ∃ other, c = .deleteStorageGroup other
            ∧ (other = name ∨ (Utf8.encode other).length < (Utf8.encode name).length) := by
  obtain ⟨hflagged, hsent⟩ := exists_plan haddress name
  have harrives {s : Sending} (hplan : plan (deletion address name) = .ok s) {c : Command}
      {done : Json} (hcall : Api.call s.request = .ok (.submit c done)) :
      isFlag name = false ∧ ∃ part ∈ parts name, ∃ other, Percent.decodeText? part = some other
        ∧ c = .deleteStorageGroup other
        ∧ pathNames name = [groupsName, Percent.encode Path.keeps part]
        ∧ Percent.encode Path.keeps part ≠ [] := by
    have hflag : isFlag name = false := by
      cases h : isFlag name with
      | false => rfl
      | true => exact absurd hplan (hflagged h s)
    obtain ⟨s', hplan', hmethod, hpath⟩ := hsent hflag
    obtain rfl := Except.ok.inj (hplan'.symm.trans hplan)
    exact ⟨hflag, exists_part_of_call hmethod hpath hcall⟩
  refine ⟨⟨fun h => ?_, fun h => ?_⟩, fun s c done hplan hcall => ?_⟩
  · obtain ⟨s, done, hplan, hcall⟩ := h
    obtain ⟨hflag, part, hpart, other, hother, hdelete, hnames, hne⟩ := harrives hplan hcall
    obtain rfl := Command.deleteStorageGroup.inj hdelete
    rcases eq_or_length_lt_of_mem_parts hpart hother with ⟨rfl, -⟩ | hlt
    · obtain ⟨hmark, hend⟩ := noMark_of_mem_parts hpart
      refine ⟨hflag, ?_, hmark, hend, ⟨?_, ?_⟩, hother⟩
      · rintro rfl
        exact hne rfl
      -- Behind a step the path ends in an empty name.
      · rintro rfl
        revert hnames
        decide
      · rintro rfl
        revert hnames
        decide
    · exact absurd hlt (Nat.lt_irrefl _)
  · obtain ⟨s, hplan, hmethod, hpath⟩ := hsent h.notFlag
    refine ⟨s, _, hplan, (call_delete_eq_ok_iff hmethod).2
      ⟨Percent.encode Path.keeps name.toList, name, ?_, ?_, ?_, ?_, rfl⟩⟩
    · have hgroups : storageGroupPath = '/' :: (groupsName ++ ['/']) := by decide
      rw [hpath, h.pathNames_eq, hgroups]
      simp only [List.flatMap_cons, List.flatMap_nil, List.append_nil, List.cons_append,
        List.append_assoc, List.nil_append]
    · intro hnil
      have hempty := Path.decodeText?_encode_keeps name.toList
      rw [hnil, h.decodes] at hempty
      exact h.nonempty (Option.some.inj (hempty.symm.trans (Utf8.decode?_encode "")))
    · have hmem : Percent.encode Path.keeps name.toList ∈ pathNames name := by
        rw [h.pathNames_eq]
        exact List.mem_cons_of_mem _ List.mem_cons_self
      exact (not_mem_of_mem_pathNames hmem).1
    · rw [Path.decodeText?_encode_keeps]
      exact h.decodes
  · obtain ⟨-, part, hpart, other, hother, hdelete, -⟩ := harrives hplan hcall
    exact ⟨other, hdelete, (eq_or_length_lt_of_mem_parts hpart hother).imp_left And.right⟩

/-- The address that is asked if none is named. -/
theorem isAddress_default : IsAddress defaultAddress where
  exists_authority :=
    ⟨"127.0.0.1:10710".toList, by decide, by decide, forall_mem_of_all (by decide),
      forall_mem_of_all (by decide)⟩
  isUrl := by decide +kernel

/-- A name with a dot arrives. -/
theorem deletes_iff_dotted :
    ∃ s done, plan (deletion defaultAddress "root.sg0") = .ok s
      ∧ Api.call s.request = .ok (.submit (.deleteStorageGroup "root.sg0") done) :=
  (deletes_iff isAddress_default "root.sg0").1.2
    { notFlag := by decide
      nonempty := by decide
      noMark := forall_mem_of_all (by decide)
      noBlankEnd := fun c hc => by
        have hlast : some '0' = some c := hc
        cases hlast
        decide
      notStep := by decide
      decodes := by decide +kernel }

/-- A name with a number sign does not arrive: what stands in front of it is deleted. -/
theorem deletes_front_of_fragment :
    ∃ s done, plan (deletion defaultAddress "a#b") = .ok s
      ∧ Api.call s.request = .ok (.submit (.deleteStorageGroup "a") done) := by
  obtain ⟨s, hplan, hmethod, hpath⟩ := (exists_plan isAddress_default "a#b").2 (by decide)
  exact ⟨s, _, hplan, (call_delete_eq_ok_iff hmethod).2
    ⟨['a'], "a", hpath.trans (by decide), by decide, by decide, by decide +kernel, rfl⟩⟩

end ControlPlane.Control
