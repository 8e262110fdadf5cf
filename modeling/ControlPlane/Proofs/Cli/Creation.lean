import ControlPlane.Proofs.Api.RegionGroups
import ControlPlane.Proofs.Cli.Deletion
import ControlPlane.Proofs.Cli.Replica

/-!
# ControlPlane.Proofs.Cli.Creation

Which region group is created when an operator describes one.  The storage group, the region and the
replicas go through the arguments, a body in which members stand in the order of their names, and
the map that the node builds from it.  Nothing is changed on the way (`creates_or_tooLarge`): the
command has the one storage group, and one replica set with the replicas in order.  The node takes
no bodies above a size, though, and replicas with long addresses make one (`tooLarge_farSet`).
-/

namespace ControlPlane.Control

open Api Cli Http Url
open Json (toJson Takes)
open Json.Reader (string_quote)

/-! ## arguments -/

/-- How operators name a type of groups. -/
def typeText : GroupType → String
  | .schemaRegion => "schema"
  | .dataRegion => "data"

/-- The text of a replica. -/
def replicaString (l : Location) : String := String.ofList (replicaText l)

/-- Arguments have a region group created, at an address or at the default one.  The type of the
group is left out or given; a group of data is meant where it is left out. -/
structure IsCreation (args : List String) (address storageGroup : String) (r : ReplicaSet) :
    Prop where
  exists_parts : ∃ addressArgs nameArgs typeArgs idArgs replicaArgs,
    args = addressArgs ++ "region-group" :: "create"
        :: (nameArgs ++ (typeArgs ++ (idArgs ++ replicaArgs.flatten)))
      ∧ (addressArgs = [] ∧ address = defaultAddress ∨ Gives "addr" address addressArgs)
      ∧ Gives "storage-group" storageGroup nameArgs
      ∧ (typeArgs = [] ∧ r.regionId.groupType = .dataRegion
        ∨ Gives "group-type" (typeText r.regionId.groupType) typeArgs)
      ∧ Gives "region-id" (Decimal.text r.regionId.id.toInt) idArgs
      ∧ List.Forall₂ (Gives "replica") (r.locations.map replicaString) replicaArgs

/-- The flag of the storage group. -/
def storageGroupFlag : Flag := { name := "storage-group", short := some 's', required := true }

/-- The flag of the type. -/
def groupTypeFlag : Flag where
  name := "group-type"
  short := some 't'
  valid := fun s => s = "schema" || s = "data"

/-- The flag of the region. -/
def regionIdFlag : Flag where
  name := "region-id"
  short := some 'r'
  valid := Integer.isInt32
  required := true

/-- The flag of replicas. -/
def replicaFlag : Flag := { name := "replica", arity := .many, required := true }

/-- The verb for creating a region group. -/
def createVerb : Verb where
  name := "create"
  flags := [storageGroupFlag, groupTypeFlag, regionIdFlag, replicaFlag]

/-- The verb above it. -/
def regionGroupVerb : Verb := { name := "region-group", verbs := [createVerb] }

theorem hasFlag_address : program.HasFlag addressFlag where
  find? := rfl
  arity := by decide
  ne_help := by decide
  nonempty := by decide
  noEquals := by decide
  notFlag := by decide

theorem hasFlag_create : ∀ f ∈ createVerb.flags, createVerb.HasFlag f := by
  have hflag {f : Flag} (hfind : createVerb.flags.find? (·.name == f.name) = some f)
      (harity : f.arity ≠ .nothing) (hhelp : f.name ≠ "help") (hname : f.name.toList ≠ [])
      (hequals : '=' ∉ f.name.toList) : createVerb.HasFlag f :=
    ⟨hfind, harity, hhelp, hname, hequals, List.forall_mem_nil _⟩
  simp only [createVerb, List.forall_mem_cons]
  exact ⟨hflag rfl (by decide) (by decide) (by decide) (by decide),
    hflag rfl (by decide) (by decide) (by decide) (by decide),
    hflag rfl (by decide) (by decide) (by decide) (by decide),
    hflag rfl (by decide) (by decide) (by decide) (by decide), List.forall_mem_nil _⟩

section Arguments

variable {storageGroup : String} {r : ReplicaSet}

/-- What the flags of the group type come to: nothing, for a group of data, or the type. -/
def IsTypeGiven (t : GroupType) (given : List (String × String)) : Prop :=
  given = [] ∧ t = .dataRegion ∨ given = [("group-type", typeText t)]

/-- What the flags of a creation come to. -/
def creationGiven (storageGroup : String) (typeGiven : List (String × String)) (r : ReplicaSet) :
    List (String × String) :=
  ("storage-group", storageGroup) :: (typeGiven ++ ("region-id", Decimal.text r.regionId.id.toInt)
    :: (r.locations.map replicaString).map ("replica", ·))

/-- The type of the group is read, or left out. -/
theorem exists_settles_type {t : GroupType} {typeArgs : List String}
    (htype : typeArgs = [] ∧ t = .dataRegion ∨ Gives "group-type" (typeText t) typeArgs)
    {p : Progress} (hp : p.Settles [("storage-group", storageGroup)]) :
    ∃ (typeGiven : _) (p' : Progress), IsTypeGiven t typeGiven
      ∧ p'.Settles (("storage-group", storageGroup) :: typeGiven)
      ∧ ∀ rest, createVerb.readFrom p (typeArgs ++ rest) = createVerb.readFrom p' rest := by
  rcases htype with ⟨rfl, hdata⟩ | hargs
  · exact ⟨[], p, .inl ⟨rfl, hdata⟩, hp, fun rest => rfl⟩
  · have hflag : createVerb.HasFlag groupTypeFlag := hasFlag_create _ (by simp [createVerb])
    have hvalid : groupTypeFlag.valid (typeText t) = true := by cases t <;> decide
    obtain ⟨p', hp', hread⟩ := Verb.readFrom_gives hflag hvalid (.inr (by simp [groupTypeFlag]))
      hargs hp
    exact ⟨_, p', .inr rfl, hp', hread⟩

/-- The arguments behind the verb are read, however the values are given. -/
theorem exists_readFrom_create {nameArgs typeArgs idArgs : List String}
    {replicaArgs : List (List String)} (hname : Gives "storage-group" storageGroup nameArgs)
    (htype : typeArgs = [] ∧ r.regionId.groupType = .dataRegion
      ∨ Gives "group-type" (typeText r.regionId.groupType) typeArgs)
    (hid : Gives "region-id" (Decimal.text r.regionId.id.toInt) idArgs)
    (hreplicas : List.Forall₂ (Gives "replica") (r.locations.map replicaString) replicaArgs)
    (hne : r.locations ≠ []) :
    ∃ typeGiven, IsTypeGiven r.regionId.groupType typeGiven
      ∧ createVerb.readFrom {} (nameArgs ++ (typeArgs ++ (idArgs ++ replicaArgs.flatten)))
        = .ok [⟨"create", creationGiven storageGroup typeGiven r⟩] := by
  obtain ⟨p, hp, hreadName⟩ := Verb.readFrom_gives
    (hasFlag_create storageGroupFlag (by simp [createVerb])) rfl (.inr List.not_mem_nil) hname
    Progress.settles_empty
  obtain ⟨typeGiven, q, htypeGiven, hq, hreadType⟩ := exists_settles_type htype hp
  have hnew : regionIdFlag.name
      ∉ (("storage-group", storageGroup) :: typeGiven).map Prod.fst := by
    rcases htypeGiven with ⟨rfl, -⟩ | rfl <;> simp [regionIdFlag]
  have hvalid : regionIdFlag.valid (Decimal.text r.regionId.id.toInt) = true := by
    simp [regionIdFlag, Integer.isInt32, Decimal.text, Integer.readInt32_signed, Except.isOk,
      Except.toBool]
  obtain ⟨q', hq', hreadId⟩ := Verb.readFrom_gives
    (hasFlag_create regionIdFlag (by simp [createVerb])) hvalid (.inr hnew) hid hq
  obtain ⟨last, hlast, hreadReplicas⟩ := Verb.readFrom_gives_all
    (hasFlag_create replicaFlag (by simp [createVerb])) rfl (fun _ _ => rfl) hreplicas hq'
  have hgiven : last.Settles (creationGiven storageGroup typeGiven r) := by
    simpa [creationGiven, replicaFlag, regionIdFlag] using hlast
  have hall : ∀ f ∈ createVerb.flags, f.required = true
      → f.name ∈ (creationGiven storageGroup typeGiven r).map Prod.fst := by
    obtain ⟨l, locations, hlocations⟩ := List.exists_cons_of_ne_nil hne
    simp [createVerb, creationGiven, hlocations, storageGroupFlag, groupTypeFlag, regionIdFlag,
      replicaFlag]
  refine ⟨typeGiven, htypeGiven, ?_⟩
  have hend := hreadReplicas []
  rw [List.append_nil] at hend
  rw [hreadName, hreadType, hreadId, hend]
  show (do return [← createVerb.close last]) = _
  rw [Verb.close_of_settles hgiven hall]
  rfl

/-- The group is the one that is meant, whether its type is given or left out. -/
theorem groupOf_creationGiven {typeGiven : List (String × String)}
    (htype : IsTypeGiven r.regionId.groupType typeGiven) :
    groupOf ⟨"create", creationGiven storageGroup typeGiven r⟩ = r.regionId := by
  obtain ⟨⟨groupType, id⟩, locations⟩ := r
  have hid {l : Level} (h : l.value? "region-id" = some (Decimal.text id.toInt)) :
      int32Of l "region-id" 0 = id := by
    rw [int32Of, h]
    simp [Decimal.text, Integer.readInt32_signed, Except.toOption]
  rcases htype with ⟨rfl, rfl⟩ | rfl
  · have htype : Level.value? ⟨"create", creationGiven storageGroup []
        ⟨⟨.dataRegion, id⟩, locations⟩⟩ "group-type" = none := by
      have hreplicas (l : List String) : (l.map (("replica", ·))).lookup "group-type" = none :=
        List.lookup_eq_none_iff.2 (by simp)
      exact hreplicas _
    rw [groupOf, hid rfl, htype]
    rfl
  · have htype : Level.value? ⟨"create", creationGiven storageGroup
        [("group-type", typeText groupType)] ⟨⟨groupType, id⟩, locations⟩⟩ "group-type"
        = some (typeText groupType) := rfl
    rw [groupOf, hid rfl, htype]
    cases groupType <;> rfl

/-- All replicas are there, in order. -/
theorem values_creationGiven {typeGiven : List (String × String)}
    (htype : IsTypeGiven r.regionId.groupType typeGiven) :
    Level.values ⟨"create", creationGiven storageGroup typeGiven r⟩ "replica"
      = r.locations.map replicaString := by
  have hreplicas (l : List String) :
      ((l.map ("replica", ·)).filter (·.1 == "replica")).map (·.2) = l := by
    rw [List.filter_eq_self.2 (by simp), List.map_map]
    exact List.map_id l
  rcases htype with ⟨rfl, -⟩ | rfl
  · exact hreplicas _
  · exact hreplicas _

/-- What is given says what to create. -/
theorem ofLevels?_creationGiven {typeGiven : List (String × String)}
    (htype : IsTypeGiven r.regionId.groupType typeGiven) :
    Action.ofLevels? [⟨"region-group", []⟩, ⟨"create", creationGiven storageGroup typeGiven r⟩]
      = some (.createRegionGroup storageGroup r.regionId (r.locations.map replicaString)) := by
  have hname : Level.value? ⟨"create", creationGiven storageGroup typeGiven r⟩ "storage-group"
      = some storageGroup := rfl
  show (do
    let storageGroup ← Level.value? _ "storage-group"
    return Action.createRegionGroup storageGroup (groupOf _) (Level.values _ "replica")) = _
  rw [hname, groupOf_creationGiven htype, values_creationGiven htype]
  rfl

/-- **The arguments of a creation** are read as what they describe. -/
theorem readArguments_creation {args : List String} {address : String}
    (h : IsCreation args address storageGroup r) (hne : r.locations ≠ []) :
    readArguments args = .ok (address,
      .createRegionGroup storageGroup r.regionId (r.locations.map replicaString)) := by
  obtain ⟨addressArgs, nameArgs, typeArgs, idArgs, replicaArgs, rfl, haddress, hname, htype, hid,
    hreplicas⟩ := h.exists_parts
  obtain ⟨typeGiven, htypeGiven, hcreate⟩ :=
    exists_readFrom_create hname htype hid hreplicas hne
  obtain ⟨p, given, hp, hgiven, hread⟩ : ∃ (p : Progress) (given : _), p.Settles given
      ∧ (Level.value? ⟨"control", given⟩ "addr").getD defaultAddress = address
      ∧ ∀ rest, program.readFrom {} (addressArgs ++ rest) = program.readFrom p rest := by
    rcases haddress with ⟨rfl, rfl⟩ | haddress
    · exact ⟨{}, [], Progress.settles_empty, rfl, fun rest => rfl⟩
    · obtain ⟨p, hp, hread⟩ := Verb.readFrom_gives hasFlag_address rfl
        (.inr List.not_mem_nil) haddress Progress.settles_empty
      exact ⟨p, _, hp, rfl, hread⟩
  have hbelow : regionGroupVerb.readFrom {} ("create"
      :: (nameArgs ++ (typeArgs ++ (idArgs ++ replicaArgs.flatten))))
      = .ok [⟨"region-group", []⟩, ⟨"create", creationGiven storageGroup typeGiven r⟩] := by
    rw [Verb.readFrom_below rfl Progress.settles_empty (by simp [regionGroupVerb]), hcreate]
    rfl
  have hlevels : program.read (addressArgs ++ "region-group" :: "create"
      :: (nameArgs ++ (typeArgs ++ (idArgs ++ replicaArgs.flatten))))
      = .ok [⟨"control", given⟩, ⟨"region-group", []⟩,
        ⟨"create", creationGiven storageGroup typeGiven r⟩] := by
    have hroot : program.find? "region-group" = some regionGroupVerb := rfl
    rw [Verb.read, hread, Verb.readFrom_below hroot hp (by simp [program]), hbelow]
    rfl
  rw [readArguments, hlevels]
  simp only [bind, Except.bind, ofLevels?_creationGiven htypeGiven, hgiven]
  rfl

end Arguments

/-! ## the body -/

/-- A record with two members, in the order of their names. -/
theorem object_pair {a b : String} (h : compare b a = .gt) (x y : Json) :
    object [(a, x), (b, y)] = .record [(a, x), (b, y)] := by
  have hinsert : SortedMap.insertEntry b y [(a, x)] = [(a, x), (b, y)] := by
    rw [SortedMap.insertEntry, h]
    rfl
  exact congrArg Json.record hinsert

/-- A record with two members that are not in the order of their names. -/
theorem object_swap {a b : String} (h : compare b a = .lt) (x y : Json) :
    object [(a, x), (b, y)] = .record [(b, y), (a, x)] := by
  have hinsert : SortedMap.insertEntry b y [(a, x)] = [(b, y), (a, x)] := by
    rw [SortedMap.insertEntry, h]
  exact congrArg Json.record hinsert

theorem locationJson_eq (l : Location) : locationJson l = toJson l := by
  have hlocation : compare "internal_endpoint" "data_node_id" = .gt := by decide
  have hendpoint : compare "port" "ip" = .gt := by decide
  rw [locationJson, endpointJson, object_pair hlocation, object_pair hendpoint]
  rfl

/-- The members of a replica set are told apart by name, so their order does not matter. -/
theorem takes_replicaSetJson (r : ReplicaSet) :
    Takes (Json.Form.reader ReplicaSet) (replicaSetJson r) (toJson r) := by
  have hset : compare "data_node_locations" "region_id" = .lt := by decide
  have hgroup : compare "id" "group_type" = .gt := by decide
  have htext : replicaSetJson r = .record [("data_node_locations", toJson r.locations),
      ("region_id", toJson r.regionId)] := by
    rw [replicaSetJson, List.map_congr_left fun l _ => locationJson_eq l, object_swap hset,
      object_pair hgroup]
    rfl
  rw [htext]
  exact Takes.record (by decide) rfl
    (.cons ⟨rfl, Json.reads r.locations⟩ (.cons ⟨rfl, Json.reads r.regionId⟩ .nil))
    (List.Perm.swap ..)

/-- The request that a body stands for. -/
def requestOf (storageGroup : String) (r : ReplicaSet) : RegionGroupsRequest :=
  ⟨SortedMap.empty.insert storageGroup [r]⟩

/-- The body is read as the request for the replica set, for its storage group. -/
theorem takes_regionGroupJson (storageGroup : String) (r : ReplicaSet) :
    Takes (Json.Form.reader RegionGroupsRequest) (regionGroupJson storageGroup r)
      (toJson (requestOf storageGroup r)) := by
  have hmap : Takes (Json.Form.reader (SortedMap String (List ReplicaSet)))
      (.record [(storageGroup, .list [replicaSetJson r])])
      (toJson (requestOf storageGroup r).regionGroups) :=
    Takes.mapWith (.cons ⟨string_quote storageGroup,
      Takes.list (.cons (takes_replicaSetJson r) .nil)⟩ .nil)
  exact Takes.record (by decide) rfl (.cons ⟨rfl, hmap⟩ .nil) (.refl _)

/-- The map of the command has the one storage group, with the one replica set. -/
theorem entries_map_requestOf (storageGroup : String) (r : ReplicaSet) :
    (requestOf storageGroup r).map.entries = [(storageGroup, [r])] := by
  rw [RegionGroupsRequest.map_eq_occupied]
  rfl

/-! ## the request -/

/-- Behind an address the path of region groups is what a node sees. -/
theorem exists_url {address : String} (haddress : IsAddress address) :
    ∃ u, Url.parse? (address ++ "/region-groups") = some u ∧ u.isHttp = true
      ∧ pathOf u.target = "/region-groups".toList := by
  obtain ⟨u, hparse, hhttp, hpath⟩ :=
    parse?_append haddress "region-groups".toList (forall_mem_of_all (by decide)) []
  have hnames : u.path.text = "/region-groups".toList := by
    rw [hpath]
    decide
  have htarget : pathOf u.target = u.path.text :=
    pathOf_target (by rw [hnames]; exact forall_mem_of_all (by decide))
  exact ⟨u, hparse, hhttp, htarget.trans hnames⟩

/-- The replicas are read back from their texts. -/
theorem mapM_readReplica (locations : List Location) :
    (locations.map replicaString).mapM (fun text => readReplica text.toList) = .ok locations := by
  induction locations with
  | nil => rfl
  | cons l locations ih =>
      have hone : readReplica (replicaString l).toList = .ok l := by
        rw [replicaString, String.toList_ofList, readReplica_replicaText]
      rw [List.map_cons, List.mapM_cons, hone, ih]
      rfl

/-- The body for the replica set is posted to the path of region groups. -/
theorem exists_plan_creation {args : List String} {address storageGroup : String} {r : ReplicaSet}
    (haddress : IsAddress address) (h : IsCreation args address storageGroup r)
    (hne : r.locations ≠ []) :
    ∃ s, plan args = .ok s ∧ s.request.method = "POST"
      ∧ pathOf s.request.target = "/region-groups".toList
      ∧ s.request.contentType = some "application/json"
      ∧ s.request.body = Utf8.encode (regionGroupJson storageGroup r).render := by
  obtain ⟨u, hparse, hhttp, hpath⟩ := exists_url haddress
  have hask : (Action.createRegionGroup storageGroup r.regionId
      (r.locations.map replicaString)).ask
      = .ok ⟨"POST", "/region-groups", some (regionGroupJson storageGroup r)⟩ := by
    rw [Action.ask, mapM_readReplica]
    rfl
  generalize hbody : Utf8.encode (regionGroupJson storageGroup r).render = body
  refine ⟨⟨u, ⟨"POST", u.target, some "application/json", body⟩⟩, ?_, rfl, hpath, rfl, rfl⟩
  subst hbody
  rw [plan, readArguments_creation h hne]
  simp only [Action.sending, hask, Ask.sending, hparse, hhttp, Bool.not_true, Bool.false_eq_true,
    if_false]
  rfl

/-! ## what is created -/

section Posted

variable {s : Sending} {storageGroup : String} {r : ReplicaSet}
  (hmethod : s.request.method = "POST")
  (hpath : pathOf s.request.target = "/region-groups".toList)
  (htype : s.request.contentType = some "application/json")
  (hbody : s.request.body = Utf8.encode (regionGroupJson storageGroup r).render)
include hmethod hpath htype

/-- What a node makes of a body that is posted to the path of region groups. -/
theorem call_posted : Api.call s.request = Route.regionGroups.call s.request
    ∧ s.request.contentType.any MediaType.isJson = true := by
  have hroute : Route.ofPath? (pathOf s.request.target) = some .regionGroups := by
    rw [hpath]
    rfl
  have hallowed : s.request.method ∈ Route.regionGroups.methods := by
    rw [hmethod]
    exact List.mem_singleton.2 rfl
  rw [Api.call, hroute, htype]
  exact ⟨if_pos hallowed, by decide⟩

/-- A body that is too long is refused. -/
theorem call_of_lt (hlength : maxBodyBytes < s.request.body.length) :
    Api.call s.request = .error .payloadTooLarge := by
  obtain ⟨hcall, hjson⟩ := call_posted hmethod hpath htype
  have hread : readBody RegionGroupsRequest s.request = .error .payloadTooLarge := by
    rw [readBody, hjson, if_neg (by simp), if_pos hlength]
  rw [hcall, Route.call, hread]
  rfl

include hbody

/-- Of any other body a command is made, with the one storage group and the one replica set. -/
theorem exists_call_of_le (hlength : s.request.body.length ≤ maxBodyBytes) :
    ∃ m done, Api.call s.request = .ok (.submit (.createRegionGroups m) done)
      ∧ m.entries = [(storageGroup, [r])] := by
  obtain ⟨hcall, hjson⟩ := call_posted hmethod hpath htype
  have hread : readBody RegionGroupsRequest s.request = .ok (requestOf storageGroup r) := by
    rw [readBody, hjson, if_neg (by simp), if_neg (Nat.not_lt.2 hlength), hbody,
      (takes_regionGroupJson storageGroup r).parseFront_eq]
  refine ⟨(requestOf storageGroup r).map, createdJson (requestOf storageGroup r).map, ?_,
    entries_map_requestOf storageGroup r⟩
  rw [hcall, Route.call, hread]
  rfl

end Posted

/-- **Creating a region group.**  A text is a replica if and only if it has an id in front of the
first at sign and a port behind the last colon, both integers of 32 bits, and then the address is
what is between them; so every location is read back from its text.  Any replicas that are given as
such texts, at least one, are posted to the node in one body.  If that is not too long, the node
makes a command of it with the one storage group, and in it one replica set with the replicas in
order; if it is, the node refuses it. -/
theorem creates_or_tooLarge {args : List String} {address storageGroup : String} {r : ReplicaSet}
    (haddress : IsAddress address) (h : IsCreation args address storageGroup r)
    (hne : r.locations ≠ []) :
    (∀ text l, readReplica text = .ok l
        ↔ GivesReplica text l.dataNodeId.toInt l.internalEndpoint.ip.toList
          l.internalEndpoint.port.toInt)
      ∧ (∀ text, (∃ l, readReplica text = .ok l)
        ↔ ∃ id ip port, GivesReplica text id ip port ∧ IsInt32 id ∧ IsInt32 port)
      ∧ (∀ l, readReplica (replicaText l) = .ok l)
      ∧ ∃ s, plan args = .ok s ∧ s.request.method = "POST"
        ∧ pathOf s.request.target = "/region-groups".toList
        ∧ s.request.body = Utf8.encode (regionGroupJson storageGroup r).render
        ∧ (s.request.body.length ≤ maxBodyBytes →
          ∃ m done, Api.call s.request = .ok (.submit (.createRegionGroups m) done)
            ∧ m.entries = [(storageGroup, [r])])
        ∧ (maxBodyBytes < s.request.body.length →
          Api.call s.request = .error .payloadTooLarge) := by
  obtain ⟨s, hplan, hmethod, hpath, htype, hbody⟩ := exists_plan_creation haddress h hne
  exact ⟨fun text l => readReplica_eq_ok_iff, fun text => exists_readReplica_iff,
    readReplica_replicaText, s, hplan, hmethod, hpath, hbody,
    exists_call_of_le hmethod hpath htype hbody, call_of_lt hmethod hpath htype⟩

/-- A replica set with an id below zero, and an address with marks of both kinds. -/
def markedSet : ReplicaSet := ⟨⟨.schemaRegion, -7⟩, [⟨-1, ⟨"a@[::1]", 6667⟩⟩, ⟨2, ⟨"", -2⟩⟩]⟩

/-- Arguments that describe it, for a storage group whose name looks like flags. -/
def markedCreation : List String :=
  ["--addr=http://127.0.0.1:10710", "region-group", "create", "--storage-group=--sg",
    "--group-type", "schema", "--region-id=-7", "--replica=-1@a@[::1]:6667", "--replica", "2@:-2"]

theorem isCreation_marked : IsCreation markedCreation defaultAddress "--sg" markedSet := by
  have hfirst : replicaString ⟨-1, ⟨"a@[::1]", 6667⟩⟩ = "-1@a@[::1]:6667" := by decide +kernel
  have hsecond : replicaString ⟨2, ⟨"", -2⟩⟩ = "2@:-2" := by decide +kernel
  have hid : Decimal.text markedSet.regionId.id.toInt = "-7" := by decide +kernel
  have hreplicas : List.Forall₂ (Gives "replica") (markedSet.locations.map replicaString)
      [["--replica=-1@a@[::1]:6667"], ["--replica", "2@:-2"]] := by
    show List.Forall₂ _ [replicaString _, replicaString _] _
    rw [hfirst, hsecond]
    exact .cons .attached (.cons (.apart (by decide)) .nil)
  refine ⟨_, _, _, _, _, ?_, .inr .attached, .attached, .inr (.apart (by decide)), .attached,
    hreplicas⟩
  rw [hid]
  rfl

/-- The replicas arrive as they were described. -/
theorem creates_or_tooLarge_marked :
    ∃ s m done, plan markedCreation = .ok s
      ∧ Api.call s.request = .ok (.submit (.createRegionGroups m) done)
      ∧ m.entries = [("--sg", [markedSet])] := by
  obtain ⟨-, -, -, s, hplan, -, -, hbody, hcall, -⟩ :=
    creates_or_tooLarge isAddress_default isCreation_marked (by decide)
  obtain ⟨m, done, hsubmit, hentries⟩ := hcall (by rw [hbody, Utf8.length_encode]; decide +kernel)
  exact ⟨s, m, done, hplan, hsubmit, hentries⟩

/-! ## too long bodies -/

/-- If each location takes a number of characters, the body takes more than all of them. -/
theorem mul_length_lt_body {r : ReplicaSet} {n : Nat}
    (h : ∀ l ∈ r.locations, n ≤ (toJson l).compact.length) (storageGroup : String) :
    (n + 1) * r.locations.length
      < (Utf8.encode (regionGroupJson storageGroup r).render).length := by
  have hitems : ∀ j ∈ r.locations.map locationJson, n ≤ j.compact.length := by
    rintro _ hj
    obtain ⟨l, hl, rfl⟩ := List.mem_map.1 hj
    rw [locationJson_eq]
    exact h l hl
  have hset : compare "data_node_locations" "region_id" = .lt := by decide
  have hlocations : (Json.list (r.locations.map locationJson)).compact
      <:+: (replicaSetJson r).compact := by
    rw [replicaSetJson, object_swap hset]
    exact Json.compact_infix_record (m := ("data_node_locations", _)) List.mem_cons_self
  have hlist : (replicaSetJson r).compact <:+: (Json.list [replicaSetJson r]).compact :=
    Json.compact_infix_list List.mem_cons_self
  have hmap : (Json.list [replicaSetJson r]).compact
      <:+: (Json.record [(storageGroup, .list [replicaSetJson r])]).compact :=
    Json.compact_infix_record (m := (storageGroup, _)) List.mem_cons_self
  have hbody : (Json.record [(storageGroup, .list [replicaSetJson r])]).compact
      <:+: (regionGroupJson storageGroup r).compact :=
    Json.compact_infix_record (m := ("region_groups", _)) List.mem_cons_self
  have hlength := Json.mul_length_lt hitems
  rw [List.length_map] at hlength
  exact hlength.trans_le ((((hlocations.trans hlist).trans hmap).trans hbody).length_le.trans
    (Json.length_compact_le_encode _))

/-- A location with a long address, of quotes.  A quote takes two characters in a body. -/
def farLocation : Location := ⟨1, ⟨String.ofList (List.replicate 105000 '"'), 1⟩⟩

theorem length_farLocation : 210000 ≤ (toJson farLocation).compact.length := by
  have hip : (toJson farLocation.internalEndpoint.ip).compact
      <:+: (toJson farLocation.internalEndpoint).compact :=
    Json.compact_infix_record (m := ("ip", _)) List.mem_cons_self
  have hendpoint : (toJson farLocation.internalEndpoint).compact
      <:+: (toJson farLocation).compact :=
    Json.compact_infix_record (m := ("internal_endpoint", _))
      (List.mem_cons_of_mem _ List.mem_cons_self)
  have hquotes : (toJson farLocation.internalEndpoint.ip).compact.length = 105000 * 2 + 2 :=
    Json.length_quote_replicate 105000 '"'
  have hlength := (hip.trans hendpoint).length_le
  omega

/-- A replica set with such replicas. -/
def farSet : ReplicaSet := ⟨⟨.dataRegion, 1⟩, List.replicate 10 farLocation⟩

/-- Arguments that describe it. -/
def farCreation : List String :=
  ["region-group", "create", "--storage-group", "x", "--region-id", "1"]
    ++ (List.replicate 10 ["--replica=" ++ replicaString farLocation]).flatten

theorem isCreation_far : IsCreation farCreation defaultAddress "x" farSet := by
  have hid : Decimal.text farSet.regionId.id.toInt = "1" := by decide +kernel
  have hflag : "--" ++ "replica" ++ "=" = "--replica=" := by decide
  have hgives (n : Nat) : List.Forall₂ (Gives "replica")
      ((List.replicate n farLocation).map replicaString)
      (List.replicate n ["--replica=" ++ replicaString farLocation]) := by
    induction n with
    | zero => exact .nil
    | succ n ih =>
        refine .cons ?_ ih
        rw [← hflag]
        exact .attached
  refine ⟨[], _, [], ["--region-id", "1"], _, rfl, .inl ⟨rfl, rfl⟩, .apart (by decide),
    .inl ⟨rfl, rfl⟩, ?_, hgives 10⟩
  rw [hid]
  exact .apart (by decide)

/-- Of replicas with long addresses no region group is made: the body is refused. -/
theorem tooLarge_farSet :
    IsCreation farCreation defaultAddress "x" farSet ∧ farSet.locations ≠ []
      ∧ ∃ s, plan farCreation = .ok s ∧ Api.call s.request = .error .payloadTooLarge := by
  have hcount : farSet.locations.length = 10 := List.length_replicate
  have hne : farSet.locations ≠ [] := List.ne_nil_of_length_pos (by rw [hcount]; decide)
  obtain ⟨s, hplan, hmethod, hpath, htype, hbody⟩ :=
    exists_plan_creation isAddress_default isCreation_far hne
  have hlong : (210000 + 1) * farSet.locations.length
      < (Utf8.encode (regionGroupJson "x" farSet).render).length :=
    mul_length_lt_body (fun l hl => by
      rw [List.eq_of_mem_replicate hl]
      exact length_farLocation) "x"
  refine ⟨isCreation_far, hne, s, hplan, call_of_lt hmethod hpath htype ?_⟩
  rw [hbody]
  rw [hcount] at hlong
  exact Nat.lt_trans (by decide) hlong

end ControlPlane.Control
