import ControlPlane.Proofs.Api.RegionGroups
import ControlPlane.Proofs.Api.Route
import ControlPlane.Proofs.Command.RoundTrip
import ControlPlane.Proofs.Http.Percent
import ControlPlane.Proofs.Json.BoundedForm
import ControlPlane.Proofs.Text.Order
import Mathlib.Data.List.Flatten

/-!
# ControlPlane.Proofs.Api.Command

The commands that requests ask for have bytes.  A command is built from a body, of which the length
is limited, or from a name in the target.  What is read from a text of at most `n` characters has
texts of at most `n` characters and lists of at most `n` items, each of them a record whose members
are bounded in turn; so all lengths and counts fit the wire (`fits_of_call`).
-/

namespace ControlPlane

open Json (Form ofJson?)
open Json.Reader (stray)
open Json.Form (Bounded)

/-! ## what is read from a text -/

section Forms

open Json.Form.Bounded (keeps member)

variable {n : Nat}

theorem Endpoint.bounded : Bounded n fun e : Endpoint => e.ip.length ≤ n := by
  have hread : Json.Reader.Bounded n _ (Form.reader Endpoint) :=
    Json.Reader.bounded_record_member "ip"
      (List.forall_mem_cons.2 ⟨keeps Json.bounded_string,
        List.forall_mem_cons.2 ⟨Json.Reader.bounded_int _ _, nofun⟩⟩)
      (List.forall_mem_cons.2 ⟨fun _ => member Json.bounded_string rfl "ip",
        List.forall_mem_cons.2 ⟨fun h => absurd h (by decide), nofun⟩⟩)
  refine hread.imp fun j hj e he => ?_
  simp only [ofJson?, Option.bind_eq_bind, Option.bind_eq_some_iff] at he
  obtain ⟨values, hvalues, he⟩ := he
  split at he
  · simp only [Option.bind_eq_some_iff] at he
    obtain ⟨ip, hip, _, -, heq⟩ := he
    cases heq
    exact hj _ hvalues 0 _ _ rfl rfl rfl ip hip
  · cases he

theorem Location.bounded : Bounded n fun l : Location => l.internalEndpoint.ip.length ≤ n := by
  have hread : Json.Reader.Bounded n _ (Form.reader Location) :=
    Json.Reader.bounded_record_member "internal_endpoint"
      (List.forall_mem_cons.2 ⟨Json.Reader.bounded_int _ _,
        List.forall_mem_cons.2 ⟨keeps Endpoint.bounded, nofun⟩⟩)
      (List.forall_mem_cons.2 ⟨fun h => absurd h (by decide),
        List.forall_mem_cons.2 ⟨fun _ => member Endpoint.bounded rfl "internal_endpoint", nofun⟩⟩)
  refine hread.imp fun j hj l hl => ?_
  simp only [ofJson?, Option.bind_eq_bind, Option.bind_eq_some_iff] at hl
  obtain ⟨values, hvalues, hl⟩ := hl
  split at hl
  · simp only [Option.bind_eq_some_iff] at hl
    obtain ⟨_, -, endpoint, hendpoint, heq⟩ := hl
    cases heq
    exact hj _ hvalues 1 _ _ rfl rfl rfl endpoint (Option.bind_eq_some_iff.2 hendpoint)
  · cases hl

theorem StorageGroupSchema.bounded : Bounded n fun s : StorageGroupSchema => s.name.length ≤ n := by
  have hothers : ∀ m ∈ StorageGroupSchema.members.tail, m.name ≠ "name" := by decide
  have hread : Json.Reader.Bounded n _ (Form.reader StorageGroupSchema) :=
    Json.Reader.bounded_record_member "name"
      (List.forall_mem_cons.2 ⟨keeps Json.bounded_string,
        List.forall_mem_cons.2 ⟨Json.Reader.bounded_int _ _,
          List.forall_mem_cons.2 ⟨Json.Reader.bounded_int _ _,
            List.forall_mem_cons.2 ⟨Json.Reader.bounded_int _ _,
              List.forall_mem_cons.2 ⟨Json.Reader.bounded_int _ _, nofun⟩⟩⟩⟩⟩)
      (List.forall_mem_cons.2 ⟨fun _ => member Json.bounded_string rfl "name",
        fun m hm hname => absurd hname (hothers m hm)⟩)
  refine hread.imp fun j hj s hs => ?_
  simp only [ofJson?, Option.bind_eq_bind, Option.bind_eq_some_iff] at hs
  obtain ⟨values, hvalues, hs⟩ := hs
  split at hs
  · simp only [Option.bind_eq_some_iff] at hs
    obtain ⟨name, hname, _, -, _, -, _, -, _, -, heq⟩ := hs
    cases heq
    exact hj _ hvalues 0 _ _ rfl rfl rfl name hname
  · cases hs

theorem GroupId.bounded_reader : Json.Reader.Bounded n (fun _ => True) (Form.reader GroupId) :=
  Json.Reader.Bounded.trivial (Json.Reader.bounded_record (P := fun _ _ => True)
    (List.forall_mem_cons.2
      ⟨⟨Json.Reader.bounded_choice fun name reader h => by simp at h,
          fun _ _ => .intro, fun _ _ => .intro⟩,
        List.forall_mem_cons.2
          ⟨⟨Json.Reader.bounded_int _ _, fun _ _ => .intro, fun _ _ => .intro⟩, nofun⟩⟩))

theorem ReplicaSet.bounded : Bounded n fun r : ReplicaSet =>
    r.locations.length ≤ n ∧ ∀ l ∈ r.locations, l.internalEndpoint.ip.length ≤ n := by
  have hlist := Json.bounded_list (Location.bounded (n := n))
  have hread : Json.Reader.Bounded n _ (Form.reader ReplicaSet) :=
    Json.Reader.bounded_record_member "data_node_locations"
      (List.forall_mem_cons.2 ⟨GroupId.bounded_reader,
        List.forall_mem_cons.2 ⟨keeps hlist, nofun⟩⟩)
      (List.forall_mem_cons.2 ⟨fun h => absurd h (by decide),
        List.forall_mem_cons.2 ⟨fun _ => member hlist rfl "data_node_locations", nofun⟩⟩)
  refine hread.imp fun j hj r hr => ?_
  simp only [ofJson?, Option.bind_eq_bind, Option.bind_eq_some_iff] at hr
  obtain ⟨values, hvalues, hr⟩ := hr
  split at hr
  · simp only [Option.bind_eq_some_iff] at hr
    obtain ⟨_, -, locations, hlocations, heq⟩ := hr
    cases heq
    exact hj _ hvalues 1 _ _ rfl rfl rfl locations hlocations
  · cases hr

theorem Api.RegionGroupsRequest.bounded : Bounded n fun q : RegionGroupsRequest =>
    q.regionGroups.entries.length ≤ n ∧ ∀ e ∈ q.regionGroups.entries, e.1.length ≤ n ∧
      e.2.length ≤ n ∧ ∀ r ∈ e.2, r.locations.length ≤ n ∧
        ∀ l ∈ r.locations, l.internalEndpoint.ip.length ≤ n := by
  have hmap := Json.bounded_textMap (Json.bounded_list (ReplicaSet.bounded (n := n)))
  have hread : Json.Reader.Bounded n _ (Form.reader RegionGroupsRequest) :=
    Json.Reader.bounded_record_member "region_groups"
      (List.forall_mem_cons.2 ⟨keeps hmap, nofun⟩)
      (List.forall_mem_cons.2 ⟨fun _ => member hmap rfl "region_groups", nofun⟩)
  refine hread.imp fun j hj q hq => ?_
  simp only [ofJson?, Option.bind_eq_bind, Option.bind_eq_some_iff] at hq
  obtain ⟨values, hvalues, hq⟩ := hq
  split at hq
  · simp only [Option.bind_eq_some_iff] at hq
    obtain ⟨groups, hgroups, heq⟩ := hq
    cases heq
    exact hj _ hvalues 0 _ _ rfl rfl rfl groups hgroups
  · cases hq

end Forms

/-- Whether this is a message between nodes. -/
def Call.isInternal : Call → Bool
  | .vote _ | .append _ | .install _ => true
  | _ => false

/-- A text of few enough characters fits the wire. -/
theorem textFits_of_length_le {s : String} (h : s.length ≤ stray.length * Api.maxBodyBytes) :
    TextFits s := by
  have hencode := Utf8.length_encode_le s
  have hmax : stray.length * Api.maxBodyBytes = 14680064 := rfl
  unfold TextFits
  omega

namespace Api

open Http

/-! ## what requests ask for -/

/-- The routes between nodes. -/
def Route.isInternal : Route → Bool
  | .vote | .appendEntries | .installSnapshot => true
  | _ => false

/-- The command that a request asks to have applied, if it asks for that. -/
def command? (r : Request) : Option Command :=
  match call r with
  | .ok (.submit command _) => some command
  | _ => none

theorem exists_of_command? {r : Request} {command : Command} (h : command? r = some command) :
    ∃ done, call r = .ok (.submit command done) := by
  rw [command?] at h
  split at h
  · next done hcall =>
      cases h
      exact ⟨done, hcall⟩
  · cases h

/-- What is asked for, is asked for on a route with one of its methods. -/
theorem exists_route_of_call {r : Request} {x : Call} (h : call r = .ok x) :
    ∃ route, Route.ofPath? (pathOf r.target) = some route ∧ r.method ∈ route.methods ∧
      route.call r = .ok x := by
  rw [call] at h
  split at h
  · cases h
  · next route hroute =>
      split at h
      · next hmethod => exact ⟨route, hroute, hmethod, h⟩
      · cases h

/-- On a route, just that is asked for what it is there for: messages between nodes on the routes
between nodes, and commands by methods that change something. -/
theorem Route.of_call {r : Request} {route : Route} {x : Call} (h : route.call r = .ok x) :
    x.isInternal = route.isInternal ∧
      ∀ command done, x = .submit command done →
        ∀ m ∈ route.methods, m = "POST" ∨ m = "DELETE" := by
  cases route with
  | health =>
      cases h
      exact ⟨rfl, fun _ _ h => Call.noConfusion h⟩
  | status =>
      cases h
      exact ⟨rfl, fun _ _ h => Call.noConfusion h⟩
  | partition =>
      cases h
      exact ⟨rfl, fun _ _ h => Call.noConfusion h⟩
  | dataNodes =>
      obtain ⟨location, -, h⟩ := Wire.except_bind_eq_ok_iff.1 h
      cases h
      exact ⟨rfl, fun _ _ _ => by simp [Route.methods]⟩
  | storageGroups =>
      obtain ⟨schema, -, h⟩ := Wire.except_bind_eq_ok_iff.1 h
      cases h
      exact ⟨rfl, fun _ _ _ => by simp [Route.methods]⟩
  | storageGroup name =>
      rw [Route.call] at h
      split at h
      · cases h
        exact ⟨rfl, fun _ _ _ => by simp [Route.methods]⟩
      · cases h
  | regionGroups =>
      obtain ⟨groups, -, h⟩ := Wire.except_bind_eq_ok_iff.1 h
      cases h
      exact ⟨rfl, fun _ _ _ => by simp [Route.methods]⟩
  | vote =>
      obtain ⟨q, -, h⟩ := Wire.except_bind_eq_ok_iff.1 h
      cases h
      exact ⟨rfl, fun _ _ h => Call.noConfusion h⟩
  | appendEntries =>
      obtain ⟨q, -, h⟩ := Wire.except_bind_eq_ok_iff.1 h
      cases h
      exact ⟨rfl, fun _ _ h => Call.noConfusion h⟩
  | installSnapshot =>
      obtain ⟨q, -, h⟩ := Wire.except_bind_eq_ok_iff.1 h
      cases h
      exact ⟨rfl, fun _ _ h => Call.noConfusion h⟩

/-- A message between nodes is sent on a route between nodes. -/
theorem isInternal_of_call {r : Request} {x : Call} (h : call r = .ok x) :
    (Route.ofPath? (pathOf r.target)).any Route.isInternal = x.isInternal := by
  obtain ⟨route, hroute, -, hcall⟩ := exists_route_of_call h
  rw [hroute, (Route.of_call hcall).1]
  rfl

/-- Commands are submitted by methods that change something. -/
theorem method_of_call_submit {r : Request} {command : Command} {done : Json}
    (h : call r = .ok (.submit command done)) : r.method = "POST" ∨ r.method = "DELETE" := by
  obtain ⟨route, -, hmethod, hcall⟩ := exists_route_of_call h
  exact (Route.of_call hcall).2 command done rfl r.method hmethod

/-- By other methods, no command is submitted. -/
theorem command?_eq_none {r : Request} (hpost : r.method ≠ "POST") (hdelete : r.method ≠ "DELETE") :
    command? r = none := by
  cases h : command? r with
  | none => rfl
  | some command =>
      obtain ⟨done, hcall⟩ := exists_of_command? h
      exact absurd (method_of_call_submit hcall) (not_or.2 ⟨hpost, hdelete⟩)

/-! ## commands -/

section Body

variable {α : Type} [Form α] {P : α → Prop} {r : Request} {a : α}

/-- The length of a body is limited, so what is read from it is bounded. -/
theorem of_readBody (h : Bounded (stray.length * maxBodyBytes) P) (hbody : readBody α r = .ok a) :
    P a := by
  rw [readBody] at hbody
  split at hbody
  · cases hbody
  · split at hbody
    · cases hbody
    · next hlength =>
        have hle := Nat.mul_le_mul_left stray.length (Nat.le_of_not_lt hlength)
        split at hbody
        · next b hparse =>
            cases hbody
            exact h.parseFront hle hparse
        · cases hbody
        · cases hbody

end Body

/-- The length of a target fits the wire, and so do all names in it.  In a request over HTTP, it
does: a target has less than 64 KiB. -/
def TargetFits (r : Request) : Prop := TextFits r.target

instance (r : Request) : Decidable (TargetFits r) := inferInstanceAs (Decidable (TextFits _))

/-- A name in a target has no more bytes than the target. -/
theorem textFits_of_path {r : Request} (hr : TargetFits r) {name : List Char} {s : String}
    (hpath : pathOf r.target = storageGroupPath ++ name)
    (hs : Percent.decodeText? name = some s) : TextFits s := by
  have hsublist : name.Sublist r.target.toList := by
    have hname : name.Sublist (pathOf r.target) := hpath ▸ List.sublist_append_right _ _
    exact hname.trans (List.takeWhile_sublist _)
  have hbytes : (Utf8.encode (String.ofList name)).length ≤ (Utf8.encode r.target).length := by
    rw [Utf8.encode_eq_flatMap, Utf8.encode_eq_flatMap, String.toList_ofList]
    exact (hsublist.flatMap _).length_le
  rw [Percent.decodeText?] at hs
  unfold TextFits
  rw [Utf8.encode_of_decode? hs]
  have hdecode := Percent.length_decode_le (Utf8.encode (String.ofList name))
  exact Nat.lt_of_le_of_lt (Nat.le_trans hdecode hbytes) hr

/-- **The commands of requests fit the wire**: whatever a request asks to be applied can be
written. -/
theorem fits_of_call {r : Request} (hr : TargetFits r) {c : Command} {done : Json}
    (h : call r = .ok (.submit c done)) : c.Fits := by
  have hmax : stray.length * maxBodyBytes < 2147483648 := by decide
  obtain ⟨route, hroute, -, h⟩ := exists_route_of_call h
  cases route with
  | dataNodes =>
      obtain ⟨location, hbody, h⟩ := Wire.except_bind_eq_ok_iff.1 h
      cases h
      have hip := of_readBody Location.bounded hbody
      exact textFits_of_length_le hip
  | storageGroups =>
      obtain ⟨schema, hbody, h⟩ := Wire.except_bind_eq_ok_iff.1 h
      cases h
      have hname := of_readBody StorageGroupSchema.bounded hbody
      exact textFits_of_length_le hname
  | storageGroup name =>
      rw [Route.call] at h
      split at h
      · next s hs =>
          cases h
          exact textFits_of_path hr (ofPath?_eq_storageGroup_iff.1 hroute).1 hs
      · cases h
  | regionGroups =>
      obtain ⟨q, hbody, h⟩ := Wire.except_bind_eq_ok_iff.1 h
      cases h
      obtain ⟨hcount, hentries⟩ := of_readBody RegionGroupsRequest.bounded hbody
      rw [RegionGroupsRequest.map_eq_occupied]
      refine ⟨Nat.lt_of_le_of_lt (Nat.le_trans (List.length_filter_le _ _) hcount) hmax,
        fun e he => ?_⟩
      obtain ⟨hname, hsets, hreplicas⟩ := hentries e (List.mem_filter.1 he).1
      refine ⟨textFits_of_length_le hname, Nat.lt_of_le_of_lt hsets hmax, fun r hr => ?_⟩
      obtain ⟨hlocations, hips⟩ := hreplicas r hr
      exact ⟨Nat.lt_of_le_of_lt hlocations hmax, fun l hl => textFits_of_length_le (hips l hl)⟩
  | health => cases h
  | status => cases h
  | partition => cases h
  | vote =>
      obtain ⟨_, -, h⟩ := Wire.except_bind_eq_ok_iff.1 h
      cases h
  | appendEntries =>
      obtain ⟨_, -, h⟩ := Wire.except_bind_eq_ok_iff.1 h
      cases h
  | installSnapshot =>
      obtain ⟨_, -, h⟩ := Wire.except_bind_eq_ok_iff.1 h
      cases h

end Api

end ControlPlane
