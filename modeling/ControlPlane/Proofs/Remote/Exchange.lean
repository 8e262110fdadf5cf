import ControlPlane.Cluster.Serve
import ControlPlane.Proofs.Api.Command
import ControlPlane.Proofs.Api.RegionGroups
import ControlPlane.Proofs.Cluster.Single
import ControlPlane.Proofs.Consensus.Message
import ControlPlane.Remote

/-!
# ControlPlane.Proofs.Remote.Exchange

Messages to other nodes over HTTP.  Who sends one gets what it would get by asking the other node
itself, if the message and the answer arrive: the message may not have more bytes than a body, and
the answer of a node that has stopped may not have too many causes (`Remote.exchange_eq_delivered`).
This does not depend on what the other node answers, so whoever answers is taken as a parameter,
`Responder`; the nodes of a cluster are such (`Cluster.serve_eq_responder`).  Bytes take two
characters each or more, so a piece of a snapshot that has half as many bytes as a body never
arrives (`Remote.exchange_install_of_le`), and neither do entries with such a command.
-/

namespace ControlPlane

open Consensus Http
open Json (Form LawfulForm toJson)

namespace Remote

/-! ## who answers -/

/-- Answers to the messages of other nodes, and what becomes of whoever answers. -/
structure Responder (σ : Type) where
  vote : VoteRequest → σ → Answer Empty VoteResponse × σ
  append : AppendRequest → σ → Answer Empty AppendResponse × σ
  install : InstallRequest → σ → Answer InstallError InstallResponse × σ

section Exchange

variable {ε α Q σ : Type} [Form ε] [Form α] [Form Q]

/-- An answer is sent as a success, whatever it says. -/
def reply (answered : Answer ε α × σ) : Response × σ :=
  (⟨.ok, some (toJson answered.1)⟩, answered.2)

/-- Answers a request on a route between nodes. -/
def Responder.serve (R : Responder σ) (r : Request) (s : σ) : Response × σ :=
  match Api.call r with
  | .error status => (⟨status, none⟩, s)
  | .ok (.vote q) => reply (R.vote q s)
  | .ok (.append q) => reply (R.append q s)
  | .ok (.install q) => reply (R.install q s)
  | .ok _ => (⟨.notFound, none⟩, s)

/-- Sends a request to another node and takes what comes back for its answer. -/
def exchange (R : Responder σ) (target : UInt64) (r : Request) (s : σ) :
    Except (Error ε) α × σ :=
  let (response, s) := R.serve r s
  (answer target (some ⟨response.status, bodyBytes response.body⟩), s)

/-- What comes of a message to another node that answers it like this and becomes that.  A message
that is too long does not get there, and the node stays as it is; an answer that cannot be read does
not get back. -/
def delivered (target : UInt64) (q : Q) (answered : Answer ε α × σ) (s : σ) :
    Except (Error ε) α × σ :=
  if (Json.writeBytes q).length ≤ Api.maxBodyBytes then
    (if answered.1.Readable then answered.1.mapError (.remote target) else .error (.network none),
      answered.2)
  else (.error (.network (some (statusMessage target .payloadTooLarge))), s)

omit [Form ε] [Form α]

theorem delivered_of_le {target : UInt64} {q : Q} {answered : Answer ε α × σ} {s : σ}
    (hlength : (Json.writeBytes q).length ≤ Api.maxBodyBytes) (h : answered.1.Readable) :
    delivered target q answered s = (answered.1.mapError (.remote target), answered.2) := by
  rw [delivered, if_pos hlength, if_pos h]

theorem delivered_of_lt {target : UInt64} {q : Q} {answered : Answer ε α × σ} {s : σ}
    (hlength : Api.maxBodyBytes < (Json.writeBytes q).length) :
    delivered target q answered s
      = (.error (.network (some (statusMessage target .payloadTooLarge))), s) := by
  rw [delivered, if_neg (Nat.not_le_of_lt hlength)]

variable [Form ε] [Form α]

/-! ## the way there -/

/-- A message that is not too long is what its request asks for. -/
theorem call_request [LawfulForm Q] (path : String) (route : Api.Route) {message : Q → Call}
    (hroute : Api.Route.ofPath? (pathOf ("/raft/" ++ path)) = some route)
    (hmethod : "POST" ∈ route.methods)
    (hcall : ∀ r, route.call r = (do return message (← Api.readBody Q r))) (q : Q) :
    Api.call (request path q)
      = if (Json.writeBytes q).length ≤ Api.maxBodyBytes then .ok (message q)
        else .error .payloadTooLarge := by
  have htype : (some "application/json").any MediaType.isJson = true := by decide
  have hroute : Api.Route.ofPath? (pathOf (request path q).target) = some route := hroute
  rw [Api.call, hroute]
  simp only [request, if_pos hmethod, hcall]
  split
  · next hlength =>
      have hbody : Api.readBody Q (request path q) = .ok q := Api.readBody_write htype rfl hlength
      rw [request] at hbody
      rw [hbody]
      rfl
  · next hlength =>
      rw [Api.readBody, htype, if_neg (by simp), if_pos (Nat.lt_of_not_le hlength)]
      rfl

/-! ## the way back -/

/-- An answer that can be read is the result, a refusal in the name of the node; any other is
none. -/
theorem answer_reply [LawfulForm ε] [LawfulForm α] (target : UInt64) (a : Answer ε α) :
    answer target (some ⟨.ok, Json.writeBytes a⟩)
      = if a.Readable then a.mapError (.remote target) else .error (.network none) := by
  have hsuccess : Status.ok.isSuccess = true := by decide
  by_cases h : a.Readable
  · rw [if_pos h, answer, if_pos hsuccess, Json.writeBytes, Json.parseBytes_encode,
      (Answer.readBack h).parse_eq]
    cases a <;> rfl
  · obtain ⟨fault, hfault⟩ := (Answer.fails h).exists_parse_eq_error
    rw [if_neg h, answer, if_pos hsuccess, Json.writeBytes, Json.parseBytes_encode, hfault]

/-- What is no success, or no answer, is an error of the network. -/
theorem exists_answer_eq_network {target : UInt64} {r : Received}
    (h : r.status.isSuccess = false ∨ ∀ a : Answer ε α, Json.parseBytes r.body ≠ .ok a) :
    ∃ reason, (answer target (some r) : Except (Error ε) α) = .error (.network reason) := by
  rw [answer]
  split
  · next hsuccess =>
      have hparse := h.resolve_left (by rw [hsuccess]; decide)
      cases hread : Json.parseBytes (α := Answer ε α) r.body with
      | ok a => exact absurd hread (hparse a)
      | error fault => exact ⟨none, rfl⟩
  · exact ⟨_, rfl⟩

/-! ## there and back -/

/-- **A message** whose request asks for it if it is not too long, and is answered like this, is
delivered. -/
theorem exchange_eq_of_serve [LawfulForm ε] [LawfulForm α] {R : Responder σ} {target : UInt64}
    {r : Request} {q : Q} {message : Q → Call} {answered : Answer ε α × σ} {s : σ}
    (hcall : Api.call r = if (Json.writeBytes q).length ≤ Api.maxBodyBytes then .ok (message q)
      else .error .payloadTooLarge)
    (hserve : Api.call r = .ok (message q) → R.serve r s = reply answered) :
    exchange R target r s = delivered target q answered s := by
  unfold exchange delivered
  split at hcall
  · next hlength =>
      rw [if_pos hlength, hserve hcall]
      exact Prod.ext (answer_reply target answered.1) rfl
  · next hlength =>
      rw [if_neg hlength, Responder.serve, hcall]
      rfl

end Exchange

/-! ## the nodes of a cluster -/

/-- How a node answers; it does not if it has stopped. -/
def ofNode : Responder Node where
  vote q n := Cluster.unlessFatal n fun n => let (a, n) := n.answerVote q; (.ok a, n)
  append q n := Cluster.unlessFatal n fun n => let (a, n) := n.answerAppend q; (.ok a, n)
  install q n := Cluster.unlessFatal n fun n => n.answerInstall q

end Remote

/-- Messages between nodes are posted. -/
theorem Api.method_ne_head_of_call {r : Request} {x : Call} (h : call r = .ok x)
    (hr : (Route.ofPath? (pathOf r.target)).any Route.isInternal = true) : r.method ≠ "HEAD" := by
  obtain ⟨route, hroute, hmethod, -⟩ := exists_route_of_call h
  rw [hroute, Option.any_some] at hr
  intro hhead
  rw [hhead] at hmethod
  cases route <;> simp [Route.isInternal, Route.methods] at hr hmethod

/-- **A node of a cluster** answers on the routes between nodes as it does when it is asked itself,
and nothing else changes. -/
theorem Cluster.serve_eq_responder {c : Cluster} {i : Nat} {n : Node} (hn : c.node? i = some n)
    {r : Request} (hr : (Api.Route.ofPath? (pathOf r.target)).any Api.Route.isInternal = true) :
    c.serve i r = ((Remote.ofNode.serve r n).1, c.setNode i (Remote.ofNode.serve r n).2) := by
  rw [serve, hn]
  unfold Remote.Responder.serve
  cases hcall : Api.call r with
  | error status => simp only [setNode_of_node? hn]
  | ok x =>
      have hpost : r.method ≠ "HEAD" := Api.method_ne_head_of_call hcall hr
      rw [Api.isInternal_of_call hcall] at hr
      cases x with
      | vote q => simp only [if_neg hpost]; rfl
      | append q => simp only [if_neg hpost]; rfl
      | install q => simp only [if_neg hpost]; rfl
      | health => cases hr
      | status => cases hr
      | partition => cases hr
      | submit command done => cases hr

namespace Remote

/-! ## messages that are too long -/

/-- A piece of a snapshot takes two bytes for each of its own, at least. -/
theorem two_mul_length_lt_install (q : InstallRequest) :
    2 * q.data.length < (Json.writeBytes q).length := by
  have hdata : ("data", toJson q.data) ∈ [("vote", toJson q.vote), ("meta", toJson q.about),
      ("offset", toJson q.offset), ("data", toJson q.data), ("done", toJson q.done)] := by simp
  exact (Json.two_mul_length_lt q.data).trans_le
    ((Json.compact_infix_record hdata).length_le.trans (Json.length_compact_le_encode _))

/-- So does a command in an entry. -/
theorem two_mul_length_lt_append {q : AppendRequest} {e : Entry} (he : e ∈ q.entries)
    {command : Bytes} (hcommand : e.payload = .normal command) :
    2 * command.length < (Json.writeBytes q).length := by
  have hnormal : ("Normal", toJson command) ∈ [("Normal", toJson command)] := List.mem_cons_self
  have hpayload : ("payload", toJson e.payload)
      ∈ [("log_id", toJson e.logId), ("payload", toJson e.payload)] := by simp
  have hentries : ("entries", toJson q.entries) ∈ [("vote", toJson q.vote),
      ("prev_log_id", toJson q.previous), ("entries", toJson q.entries),
      ("leader_commit", toJson q.leaderCommit)] := by simp
  have hentry : (toJson e).compact <:+: (toJson q.entries).compact :=
    Json.compact_infix_list (List.mem_map_of_mem he)
  have hinside : (toJson command).compact <:+: (toJson e.payload).compact := by
    rw [hcommand]
    exact Json.compact_infix_record hnormal
  exact (Json.two_mul_length_lt command).trans_le
    ((((hinside.trans (Json.compact_infix_record hpayload)).trans hentry).trans
      (Json.compact_infix_record hentries)).length_le.trans (Json.length_compact_le_encode _))

/-! ## messages -/

section Messages

variable {σ : Type} (R : Responder σ) (target : UInt64) (s : σ)

theorem exchange_vote (q : VoteRequest) :
    exchange R target (vote q) s = delivered target q (R.vote q s) s := by
  have hcall := call_request "vote" .vote rfl List.mem_cons_self (fun _ => rfl) q
  exact exchange_eq_of_serve hcall fun h => by rw [Responder.serve, h]

theorem exchange_append (q : AppendRequest) :
    exchange R target (append q) s = delivered target q (R.append q s) s := by
  have hcall := call_request "append_entries" .appendEntries rfl List.mem_cons_self
    (fun _ => rfl) q
  exact exchange_eq_of_serve hcall fun h => by rw [Responder.serve, h]

theorem exchange_install (q : InstallRequest) :
    exchange R target (install q) s = delivered target q (R.install q s) s := by
  have hcall := call_request "install_snapshot" .installSnapshot rfl List.mem_cons_self
    (fun _ => rfl) q
  exact exchange_eq_of_serve hcall fun h => by rw [Responder.serve, h]

/-- A piece of half as many bytes as a body may have does not get there. -/
theorem exchange_install_of_le {q : InstallRequest} (h : Api.maxBodyBytes ≤ 2 * q.data.length) :
    (exchange R target (install q) s : Except (Error InstallError) InstallResponse × σ)
      = (.error (.network (some (statusMessage target .payloadTooLarge))), s) := by
  rw [exchange_install, delivered_of_lt (Nat.lt_of_le_of_lt h (two_mul_length_lt_install q))]

/-- Neither do entries, if one of them has a command of as many bytes. -/
theorem exchange_append_of_le {q : AppendRequest} {e : Entry} (he : e ∈ q.entries)
    {command : Bytes} (hcommand : e.payload = .normal command)
    (h : Api.maxBodyBytes ≤ 2 * command.length) :
    (exchange R target (append q) s : Except (Error Empty) AppendResponse × σ)
      = (.error (.network (some (statusMessage target .payloadTooLarge))), s) := by
  rw [exchange_append,
    delivered_of_lt (Nat.lt_of_le_of_lt h (two_mul_length_lt_append he hcommand))]

/-- **Messages over HTTP**, whoever answers them.  The sender has just what comes of asking the
other node itself, once, with the very same message, unless the message has more bytes than a body
may have, or too many causes are behind the answer: a message that is too long does not get there,
and such an answer does not get back, and both are errors of the network.  A response without
success, or with a body that is no answer, is an error of the network too.  The nodes of a cluster
answer in this way. -/
theorem exchange_eq_delivered :
    (∀ q : VoteRequest, exchange R target (vote q) s = delivered target q (R.vote q s) s) ∧
    (∀ q : AppendRequest, exchange R target (append q) s = delivered target q (R.append q s) s) ∧
    (∀ q : InstallRequest,
      exchange R target (install q) s = delivered target q (R.install q s) s) ∧
    (∀ (ε α : Type) [Form ε] [Form α] (r : Received),
      (r.status.isSuccess = false ∨ ∀ a : Answer ε α, Json.parseBytes r.body ≠ .ok a) →
        ∃ reason, (answer target (some r) : Except (Error ε) α) = .error (.network reason)) ∧
    ∀ (c : Cluster) (i : Nat) (n : Node) (r : Request), c.node? i = some n →
      (Api.Route.ofPath? (pathOf r.target)).any Api.Route.isInternal = true →
        c.serve i r = ((ofNode.serve r n).1, c.setNode i (ofNode.serve r n).2) :=
  ⟨exchange_vote R target s, exchange_append R target s, exchange_install R target s,
    fun _ _ _ _ _ => exists_answer_eq_network,
    fun _ _ _ _ hn hr => Cluster.serve_eq_responder hn hr⟩

end Messages

/-- A node that never was in a cluster. -/
def newcomer : Node := Cluster.newNode Config.default

/-- A piece of a snapshot that begins at this offset. -/
def pieceAt (offset : UInt64) (data : Bytes) : InstallRequest :=
  ⟨⟨⟨1, 2⟩, true⟩, ⟨none, StoredMembership.initial, "s"⟩, offset, data, false⟩

/-- A node that is new grants a vote, and refuses a piece from the middle of a snapshot. -/
theorem exchange_eq_delivered_newcomer :
    ((exchange ofNode 1 (vote ⟨⟨⟨1, 2⟩, false⟩, none⟩) newcomer).1
        : Except (Error Empty) VoteResponse) = .ok ⟨⟨⟨1, 2⟩, false⟩, true, none⟩ ∧
      ((exchange ofNode 1 (install (pieceAt 5 [0])) newcomer).1
        : Except (Error InstallError) InstallResponse)
        = .error (.remote 1 (.request (.mismatch ⟨"s", 0⟩ ⟨"s", 5⟩))) := by
  obtain ⟨hvote, -, hinstall, -⟩ := exchange_eq_delivered ofNode 1 newcomer
  rw [hvote, hinstall, delivered_of_le (by decide +kernel) (by exact trivial),
    delivered_of_le (by decide +kernel) (by exact trivial)]
  exact ⟨rfl, rfl⟩

theorem exchange_ne_install_of_le {data : Bytes} (h : Api.maxBodyBytes ≤ 2 * data.length) :
    (ofNode.install (pieceAt 0 data) newcomer).1 = .ok ⟨Vote.initial⟩ ∧
      (exchange ofNode 1 (install (pieceAt 0 data)) newcomer
        : Except (Error InstallError) InstallResponse × Node)
        = (.error (.network (some "HTTP error from node 1: 413 Payload Too Large")), newcomer) := by
  have htext : statusMessage 1 .payloadTooLarge
      = "HTTP error from node 1: 413 Payload Too Large" := by decide +kernel
  rw [exchange_install_of_le ofNode 1 newcomer (q := pieceAt 0 data) h, htext]
  exact ⟨rfl, rfl⟩

/-- A piece of half as many bytes as a body may have is refused on its way to a node that takes it
when it is asked itself. -/
theorem exchange_ne_install_longPiece :
    (ofNode.install (pieceAt 0 (List.replicate 1048576 0)) newcomer).1 = .ok ⟨Vote.initial⟩ ∧
      (exchange ofNode 1 (install (pieceAt 0 (List.replicate 1048576 0))) newcomer
        : Except (Error InstallError) InstallResponse × Node)
        = (.error (.network (some "HTTP error from node 1: 413 Payload Too Large")), newcomer) :=
  exchange_ne_install_of_le (by rw [List.length_replicate]; decide)

end Remote

end ControlPlane
