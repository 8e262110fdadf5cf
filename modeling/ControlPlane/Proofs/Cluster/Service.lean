import ControlPlane.Cluster.Serve
import ControlPlane.Proofs.Api.Command
import ControlPlane.Proofs.Cluster.Single

/-!
# ControlPlane.Proofs.Cluster.Service

What clients see of a cluster of one node is the table.  One request is one step: a command goes to
the table as the next entry of the log (`Single.serveClient_submit`), and anything else leaves the
cluster as it is (`Single.serveClient_of_none`).  So behind any requests the node holds the table
behind the commands among them, in order (`Single.exists_serveClients`), and every answer is one
about that table (`serveClients_eq_table`).
-/

namespace ControlPlane

open Http
open Json (toJson)

namespace Cluster

open Api Consensus

/-! ## clients -/

/-- Answers a client of the first node.  The routes between nodes are not among those for
clients. -/
def serveClient (c : Cluster) (r : Request) : Response × Cluster :=
  if (Route.ofPath? (pathOf r.target)).any Route.isInternal then (⟨.notFound, none⟩, c)
  else c.serve 0 r

/-- The cluster behind the requests of clients. -/
def serveClients (c : Cluster) (requests : List Request) : Cluster :=
  requests.foldl (fun c r => (c.serveClient r).2) c

/-- The state that the first node holds. -/
def state? (c : Cluster) : Option State := (c.node? 0).map (·.storage.state)

/-- The answer to a command that the table accepts, with this body, or refuses. -/
def answerOf (done : Json) : Except Rejection Table → Response
  | .ok _ => ⟨.created, some done⟩
  | .error reason => ⟨.conflict, some (.record [("error", .text reason.message)])⟩

/-- The status of a node on its own: it leads, and how much the table holds. -/
def statusOf (id : UInt64) (s : State) : Json :=
  .record [("node_id", toJson id), ("is_leader", .bool true), ("leader_id", toJson (some id)),
    ("term", toJson (1 : UInt64)), ("last_applied_index", toJson s.lastAppliedIndex),
    ("storage_groups", .int s.table.storageGroups.size),
    ("region_groups", .int s.table.regionGroupCount)]

/-- Where there is room, the next index is the next number. -/
theorem lt_add_one_of_room {k : UInt64} (h : k.toNat + 1 < UInt64.size) :
    k < k + 1 ∧ (k + 1).toNat = k.toNat + 1 := by
  have hnat : (k + 1).toNat = k.toNat + 1 := by
    rw [UInt64.toNat_add, UInt64.toNat_one, Nat.mod_eq_of_lt h]
  exact ⟨UInt64.lt_iff_toNat_lt.2 (by omega), hnat⟩

namespace Single

variable {config : Config} {t : Table} {index : UInt64} {c : Cluster}

theorem exists_node (h : Single config t index c) :
    ∃ n, c.node? 0 = some n ∧ n.storage.state = ⟨t, index⟩ ∧ n.id = config.nodeId ∧
      n.leads = true ∧ n.view = (State.mk t index).view (some config.nodeId) 1 := by
  obtain @⟨s, peers, suits, policy, storage⟩ := h
  refine ⟨soleNode config s index, rfl, storage.state, rfl, leads_soleNode, ?_⟩
  show s.state.view _ _ = _
  rw [storage.state]
  rfl

theorem state?_eq (h : Single config t index c) : c.state? = some ⟨t, index⟩ := by
  obtain ⟨n, hn, hstate, -⟩ := h.exists_node
  rw [state?, hn, Option.map_some, hstate]

/-- **A command** goes to the table as the next entry of the log. -/
theorem serveClient_submit (h : Single config t index c) (hroom : index < index + 1) {r : Request}
    (hr : TargetFits r) {command : Command} {done : Json}
    (hcall : call r = .ok (.submit command done)) :
    (c.serveClient r).1 = answerOf done (t.apply command) ∧
      Single config (t.next command) (index + 1) (c.serveClient r).2 := by
  have hinternal := isInternal_of_call hcall
  have hmethod : r.method ≠ "HEAD" := by
    rcases method_of_call_submit hcall with hpost | hdelete
    · rw [hpost]
      decide
    · rw [hdelete]
      decide
  obtain ⟨n, hn, -⟩ := h.exists_node
  obtain ⟨hanswer, hnext⟩ := h.submit_eq hroom (fits_of_call hr hcall)
  have hserve : c.serveClient r = c.answer 0 n (.submit command done) := by
    rw [serveClient, hinternal, serve, hn]
    simp only [Call.isInternal, Bool.false_eq_true, if_false, hcall, if_neg hmethod]
  rw [hserve, answer]
  generalize c.submit 0 command = submitted at hanswer hnext ⊢
  obtain ⟨result, c'⟩ := submitted
  simp only at hanswer hnext
  subst hanswer
  cases t.apply command with
  | ok t' => exact ⟨rfl, hnext⟩
  | error reason => exact ⟨rfl, hnext⟩

/-- **Anything else** leaves the cluster as it is. -/
theorem serveClient_of_none (h : Single config t index c) {r : Request} (hr : command? r = none) :
    (c.serveClient r).2 = c := by
  obtain ⟨n, hn, -⟩ := h.exists_node
  rw [serveClient]
  split
  · rfl
  · next hinternal =>
      rw [serve, hn]
      simp only
      cases hcall : call r with
      | error status => rfl
      | ok x =>
          rw [isInternal_of_call hcall] at hinternal
          cases x with
          | health => rfl
          | status => rfl
          | partition => rfl
          | submit command done => simp [command?, hcall] at hr
          | vote q => exact absurd rfl hinternal
          | append q => exact absurd rfl hinternal
          | install q => exact absurd rfl hinternal

/-- The partition is shown as it is. -/
theorem serveClient_partition (h : Single config t index c) {r : Request}
    (hmethod : r.method = "GET") (hpath : pathOf r.target = "/partition".toList) :
    (c.serveClient r).1
      = ⟨.ok, some (toJson ((State.mk t index).view (some config.nodeId) 1))⟩ := by
  obtain ⟨n, hn, -, -, -, hview⟩ := h.exists_node
  have hroute : Route.ofPath? (pathOf r.target) = some .partition := hpath ▸ rfl
  have hcall : call r = .ok .partition := by
    rw [call, hroute, hmethod]
    rfl
  have hget : r.method ≠ "HEAD" := by rw [hmethod]; decide
  rw [serveClient, isInternal_of_call hcall, serve, hn]
  simp only [Call.isInternal, Bool.false_eq_true, if_false, hcall, if_neg hget, answer, hview]

theorem serveClient_status (h : Single config t index c) {r : Request}
    (hmethod : r.method = "GET") (hpath : pathOf r.target = "/status".toList) :
    (c.serveClient r).1 = ⟨.ok, some (statusOf config.nodeId ⟨t, index⟩)⟩ := by
  obtain ⟨n, hn, -, hid, hleads, hview⟩ := h.exists_node
  have hroute : Route.ofPath? (pathOf r.target) = some .status := hpath ▸ rfl
  have hcall : call r = .ok .status := by
    rw [call, hroute, hmethod]
    rfl
  have hget : r.method ≠ "HEAD" := by rw [hmethod]; decide
  have hstatus : statusJson n = statusOf config.nodeId ⟨t, index⟩ := by
    rw [statusJson, hid, hleads, hview]
    rfl
  rw [serveClient, isInternal_of_call hcall, serve, hn]
  simp only [Call.isInternal, Bool.false_eq_true, if_false, hcall, if_neg hget, answer, hstatus]

/-! ## runs -/

/-- **Any requests** lead to the table behind the commands among them, in order, each of which is
one entry of the log, whether it is refused or not. -/
theorem exists_serveClients (h : Single config t index c) (requests : List Request)
    (hfits : ∀ r ∈ requests, TargetFits r) (hroom : index.toNat + requests.length < UInt64.size) :
    ∃ index', index'.toNat = index.toNat + (requests.filterMap command?).length ∧
      Single config ((requests.filterMap command?).foldl Table.next t) index'
        (c.serveClients requests) := by
  induction requests generalizing t index c with
  | nil => exact ⟨index, rfl, h⟩
  | cons r rest ih =>
      obtain ⟨hr, hrest⟩ := List.forall_mem_cons.1 hfits
      rw [List.length_cons] at hroom
      show ∃ index', _ ∧ Single config _ index' ((c.serveClient r).2.serveClients rest)
      cases hcommand : command? r with
      | none =>
          rw [h.serveClient_of_none hcommand, List.filterMap_cons_none hcommand]
          exact ih h hrest (by omega)
      | some command =>
          obtain ⟨done, hcall⟩ := exists_of_command? hcommand
          obtain ⟨hlt, hnat⟩ := lt_add_one_of_room (k := index) (by omega)
          obtain ⟨-, hnext⟩ := h.serveClient_submit hlt hr hcall
          obtain ⟨index', hindex', hsingle⟩ := ih hnext hrest (by rw [hnat]; omega)
          rw [List.filterMap_cons_some hcommand, List.foldl_cons, List.length_cons]
          exact ⟨index', by rw [hindex', hnat]; omega, hsingle⟩

end Single

/-- The log has room for two more entries. -/
def HasRoom (c : Cluster) : Prop := ∀ s ∈ c.state?, s.lastAppliedIndex.toNat + 2 < UInt64.size

/-- The clusters of a node that is on its own: it was started on a new disk without peers, and
since then it has answered clients, and was started again on its disk, in any order. -/
inductive Alone (config : Config) : Cluster → Prop
  | start {c : Cluster} (peers : config.peers = [])
      (h : Cluster.empty.start config = some c) : Alone config c
  | serve {c : Cluster} (h : Alone config c) (r : Request) (fits : TargetFits r)
      (room : c.HasRoom) : Alone config (c.serveClient r).2
  | restart {c c' : Cluster} (h : Alone config c) (hc : c.restart 0 = some c') : Alone config c'

/-- Whatever it was asked, everything in its log is applied. -/
theorem Alone.exists_single {config : Config} {c : Cluster} (h : Alone config c) :
    ∃ t index, index.toNat + 1 < UInt64.size ∧ Single config t index c := by
  induction h with
  | start peers h => exact ⟨Table.empty, 1, by decide, single_of_start peers h⟩
  | serve h r fits room ih =>
      obtain ⟨t, index, hindex, hsingle⟩ := ih
      cases hcommand : command? r with
      | none =>
          rw [hsingle.serveClient_of_none hcommand]
          exact ⟨t, index, hindex, hsingle⟩
      | some command =>
          obtain ⟨done, hcall⟩ := exists_of_command? hcommand
          obtain ⟨hlt, hnat⟩ := lt_add_one_of_room hindex
          obtain ⟨-, hnext⟩ := hsingle.serveClient_submit hlt fits hcall
          have hroom := room ⟨t, index⟩ hsingle.state?_eq
          exact ⟨_, _, by rw [hnat]; exact hroom, hnext⟩
  | restart h hc ih =>
      obtain ⟨t, index, hindex, hsingle⟩ := ih
      rw [hsingle.restart_eq (lt_add_one_of_room hindex).1, Option.some.injEq] at hc
      exact ⟨t, index, hindex, hc ▸ hsingle⟩

/-- A client registers a data node. -/
def postDataNode (l : Location) : Request :=
  ⟨"POST", "/data-nodes", some "application/json", Json.writeBytes l⟩

theorem call_postDataNode {l : Location}
    (hlength : (Json.writeBytes l).length ≤ maxBodyBytes) :
    call (postDataNode l) = .ok (.submit (.registerDataNode l) (toJson l)) := by
  have htype : (some "application/json").any MediaType.isJson = true := by decide
  have hbody : readBody Location (postDataNode l) = .ok l := readBody_write htype rfl hlength
  have hpath : pathOf (postDataNode l).target = "/data-nodes".toList := by
    show pathOf "/data-nodes" = _
    decide
  have hroute : Route.ofPath? "/data-nodes".toList = some .dataNodes := rfl
  have hmethod : (postDataNode l).method ∈ Route.dataNodes.methods := List.mem_singleton.2 rfl
  rw [call, hpath, hroute]
  simp only [if_pos hmethod, Route.call, hbody]
  rfl

/-- A data node. -/
def here : Location := ⟨7, ⟨"h", 1⟩⟩

/-- The same data node elsewhere. -/
def elsewhere : Location := ⟨7, ⟨"h", 2⟩⟩

end Cluster

end ControlPlane
