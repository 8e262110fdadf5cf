import ControlPlane.Config.Toml
import ControlPlane.Proofs.Toml.Document
import Mathlib.Data.List.Forall2

/-!
# ControlPlane.Proofs.Config.Toml

Settings are read back from the document that is written for them, and from what is left of it after
keys were taken out: those settings have their defaults then (`parseToml?_document`).  Strings may
be written in any of their forms.
-/

namespace ControlPlane

open Toml Toml.Value

/-! ## documents -/

/-- The greatest number of a document, which has signed integers of 64 bits. -/
def greatestNumber : Nat := 9223372036854775807

/-- Whether all numbers fit. -/
def Timing.Fits (t : Timing) : Prop :=
  t.heartbeatIntervalMs.toNat ≤ greatestNumber
    ∧ t.electionTimeoutMinMs.toNat ≤ greatestNumber
    ∧ t.electionTimeoutMaxMs.toNat ≤ greatestNumber

instance Timing.decidableFits (t : Timing) : Decidable t.Fits := inferInstanceAs (Decidable (_ ∧ _))

/-- Whether the number fits. -/
def Peer.Fits (p : Peer) : Prop := p.nodeId.toNat ≤ greatestNumber

instance Peer.decidableFits (p : Peer) : Decidable p.Fits := inferInstanceAs (Decidable (_ ≤ _))

/-- Whether all numbers fit. -/
def Config.Fits (c : Config) : Prop :=
  c.nodeId.toNat ≤ greatestNumber ∧ c.statusIntervalSecs.toNat ≤ greatestNumber
    ∧ (∀ p ∈ c.peers, p.Fits) ∧ c.raft.Fits

instance Config.decidableFits (c : Config) : Decidable c.Fits := inferInstanceAs (Decidable (_ ∧ _))

/-- The keys of the intervals, each with its number as it is written. -/
def Timing.settings (t : Timing) : List (String × String) :=
  [("heartbeat_interval_ms", Decimal.text t.heartbeatIntervalMs.toNat),
    ("election_timeout_min_ms", Decimal.text t.electionTimeoutMinMs.toNat),
    ("election_timeout_max_ms", Decimal.text t.electionTimeoutMaxMs.toNat)]

/-- The intervals of which only some are kept; the others have their defaults. -/
def Timing.restrict (keep : String → Bool) (t : Timing) : Timing :=
  let default : Timing := {}
  { heartbeatIntervalMs :=
      if keep "heartbeat_interval_ms" then t.heartbeatIntervalMs else default.heartbeatIntervalMs
    electionTimeoutMinMs :=
      if keep "election_timeout_min_ms" then t.electionTimeoutMinMs
      else default.electionTimeoutMinMs
    electionTimeoutMaxMs :=
      if keep "election_timeout_max_ms" then t.electionTimeoutMaxMs
      else default.electionTimeoutMaxMs }

/-- The keys of a peer, each with its value as it is written. -/
def Peer.settings (spell : String → String) (p : Peer) : List (String × String) :=
  [("node_id", Decimal.text p.nodeId.toNat), ("addr", spell p.addr),
    ("is_voter", Config.boolText p.isVoter)]

namespace Config

/-- The keys outside of all tables, each with its value as it is written. -/
def settings (spell : String → String) (c : Config) : List (String × String) :=
  [("node_id", Decimal.text c.nodeId.toNat)]
    ++ c.hostname.toList.map (fun s => ("hostname", spell s))
    ++ [("bind_addr", spell c.bindAddr), ("bind_port", Decimal.text c.bindPort.toNat)]
    ++ c.advertiseAddr.toList.map (fun s => ("advertise_addr", spell s))
    ++ [("data_dir", spell c.dataDir)]
    ++ (if c.peers.isEmpty then [("peers", "[]")] else [])
    ++ [("bootstrap", boolText c.bootstrap), ("on_decode_error", spell c.onDecodeError.name),
      ("status_interval_secs", Decimal.text c.statusIntervalSecs.toNat)]

/-- The lines of settings. -/
def settingLines (settings : List (String × String)) : String :=
  String.join (settings.map fun s => settingLine s.1 s.2)

/-- The tables of peers. -/
def peerTables (spell : String → String) (peers : List Peer) : String :=
  String.join (peers.map fun p => "\n[[peers]]\n" ++ settingLines (p.settings spell))

/-- The table of the intervals. -/
def timingTable (settings : List (String × String)) : String :=
  "\n[raft]\n" ++ settingLines settings

/-- The document of settings with only those keys that are kept, of the settings themselves and of
their intervals.  Strings are written in any form. -/
def document (spell : String → String) (keep keepRaft : String → Bool) (c : Config) : String :=
  settingLines ((c.settings spell).filter fun s => keep s.1)
    ++ (if keep "peers" then peerTables spell c.peers else "")
    ++ (if keep "raft" then timingTable (c.raft.settings.filter fun s => keepRaft s.1) else "")

theorem peerTables_cons (spell : String → String) (p : Peer) (peers : List Peer) :
    peerTables spell (p :: peers)
      = "\n[[peers]]\n" ++ settingLines (p.settings spell) ++ peerTables spell peers := by
  rw [peerTables, List.map_cons, String.join_cons, peerTables]

/-- The settings of which only some are kept; the others have their defaults. -/
def restrict (keep keepRaft : String → Bool) (c : Config) : Config where
  nodeId := if keep "node_id" then c.nodeId else default.nodeId
  hostname := if keep "hostname" then c.hostname else default.hostname
  bindAddr := if keep "bind_addr" then c.bindAddr else default.bindAddr
  bindPort := if keep "bind_port" then c.bindPort else default.bindPort
  advertiseAddr := if keep "advertise_addr" then c.advertiseAddr else default.advertiseAddr
  dataDir := if keep "data_dir" then c.dataDir else default.dataDir
  peers := if keep "peers" then c.peers else default.peers
  bootstrap := if keep "bootstrap" then c.bootstrap else default.bootstrap
  raft := if keep "raft" then c.raft.restrict keepRaft else default.raft
  onDecodeError := if keep "on_decode_error" then c.onDecodeError else default.onDecodeError
  statusIntervalSecs :=
    if keep "status_interval_secs" then c.statusIntervalSecs else default.statusIntervalSecs

theorem settingLines_nil : settingLines [] = "" := rfl

theorem settingLines_cons (s : String × String) (l : List (String × String)) :
    settingLines (s :: l) = settingLine s.1 s.2 ++ settingLines l := by
  rw [settingLines, List.map_cons, String.join_cons, settingLines]

theorem settingLines_append (l l' : List (String × String)) :
    settingLines (l ++ l') = settingLines l ++ settingLines l' := by
  induction l with
  | nil => simp [settingLines_nil]
  | cons s l ih =>
      rw [List.cons_append, settingLines_cons, settingLines_cons, ih, String.append_assoc]

theorem optionalLine_eq (spell : String → String) (key : String) (o : Option String) :
    optionalLine spell key o = settingLines (o.toList.map fun s => (key, spell s)) := by
  cases o with
  | none => rfl
  | some s => simp [optionalLine, settingLines_cons, settingLines_nil]

theorem wordText?_eq (n : UInt64) :
    wordText? n = if n.toNat ≤ greatestNumber then some (Decimal.text n.toNat) else none := rfl

theorem timingText?_eq (t : Timing) :
    timingText? t = if t.Fits then some (timingTable t.settings) else none := by
  simp only [timingText?, wordText?_eq, Timing.Fits, timingTable]
  by_cases hheartbeat : t.heartbeatIntervalMs.toNat ≤ greatestNumber
  · by_cases hleast : t.electionTimeoutMinMs.toNat ≤ greatestNumber
    · by_cases hgreatest : t.electionTimeoutMaxMs.toNat ≤ greatestNumber
      · simp [hheartbeat, hleast, hgreatest, Timing.settings, settingLines_cons, settingLines_nil,
          String.append_assoc]
      · simp [hheartbeat, hleast, hgreatest]
    · simp [hheartbeat, hleast]
  · simp [hheartbeat]

theorem peersText?_eq (spell : String → String) (peers : List Peer) :
    peersText? spell peers = if ∀ p ∈ peers, p.Fits then some (peerTables spell peers)
      else none := by
  induction peers with
  | nil => rfl
  | cons p peers ih =>
      have hp : peerText? spell p = if p.Fits then
          some ("\n[[peers]]\n" ++ settingLines (p.settings spell)) else none := by
        rw [peerText?, wordText?_eq]
        by_cases hfits : p.Fits
        · rw [if_pos hfits, if_pos (show p.nodeId.toNat ≤ greatestNumber from hfits)]
          simp [Peer.settings, settingLines_cons, settingLines_nil, String.append_assoc]
        · rw [if_neg hfits, if_neg (show ¬ p.nodeId.toNat ≤ greatestNumber from hfits)]
          rfl
      rw [peersText?, ih, hp]
      by_cases hfits : p.Fits
      · by_cases hpeers : ∀ p ∈ peers, p.Fits
        · rw [if_pos hfits, if_pos hpeers, if_pos (List.forall_mem_cons.2 ⟨hfits, hpeers⟩),
            peerTables_cons]
          rfl
        · rw [if_neg hpeers, if_neg fun hall => hpeers (List.forall_mem_cons.1 hall).2]
          cases (if p.Fits then _ else none : Option String) <;> rfl
      · rw [if_neg hfits, if_neg fun hall => hfits (List.forall_mem_cons.1 hall).1]
        rfl

/-- If all numbers fit there is a document, and it has all keys. -/
theorem documentText?_of_fits (spell : String → String) {c : Config} (h : c.Fits) :
    c.documentText? spell = some (c.document spell (fun _ => true) fun _ => true) := by
  obtain ⟨hid, hstatus, hpeers, hraft⟩ := h
  have hempty : (if c.peers.isEmpty then settingLine "peers" "[]" else "")
      = settingLines (if c.peers.isEmpty then [("peers", "[]")] else []) := by
    split
    · simp [settingLines_cons, settingLines_nil]
    · rfl
  simp only [documentText?, wordText?_eq, peersText?_eq, timingText?_eq]
  rw [hempty, if_pos hid, if_pos hstatus, if_pos hpeers, if_pos hraft]
  simp [document, settings, optionalLine_eq, settingLines_append, settingLines_cons,
    settingLines_nil, String.append_assoc]

/-- If a number does not fit there is none. -/
theorem documentText?_of_not_fits (spell : String → String) {c : Config} (h : ¬ c.Fits) :
    c.documentText? spell = none := by
  by_cases hid : c.nodeId.toNat ≤ greatestNumber
  · by_cases hstatus : c.statusIntervalSecs.toNat ≤ greatestNumber
    · by_cases hpeers : ∀ p ∈ c.peers, p.Fits
      · have hraft : ¬ c.raft.Fits := fun hraft => h ⟨hid, hstatus, hpeers, hraft⟩
        simp [documentText?, wordText?_eq, peersText?_eq, timingText?_eq, hraft]
      · simp only [documentText?, wordText?_eq, peersText?_eq, timingText?_eq, if_neg hpeers]
        simp
    · simp [documentText?, wordText?_eq, hstatus]
  · simp [documentText?, wordText?_eq, hid]

end Config

/-! ## tables -/

/-- The keys of the intervals, each with its value. -/
def Timing.values (t : Timing) : List (String × Value) :=
  [("heartbeat_interval_ms", .int t.heartbeatIntervalMs.toNat),
    ("election_timeout_min_ms", .int t.electionTimeoutMinMs.toNat),
    ("election_timeout_max_ms", .int t.electionTimeoutMaxMs.toNat)]

/-- The keys of a peer, each with its value. -/
def Peer.values (p : Peer) : List (String × Value) :=
  [("node_id", .int p.nodeId.toNat), ("addr", .text p.addr), ("is_voter", .bool p.isVoter)]

/-- The keys outside of all tables, each with its value. -/
def Config.values (c : Config) : List (String × Value) :=
  [("node_id", Value.int c.nodeId.toNat)]
    ++ c.hostname.toList.map (fun s => ("hostname", Value.text s))
    ++ [("bind_addr", Value.text c.bindAddr), ("bind_port", Value.int c.bindPort.toNat)]
    ++ c.advertiseAddr.toList.map (fun s => ("advertise_addr", Value.text s))
    ++ [("data_dir", Value.text c.dataDir)]
    ++ (if c.peers.isEmpty then [("peers", Value.array [])] else [])
    ++ [("bootstrap", Value.bool c.bootstrap), ("on_decode_error", Value.text c.onDecodeError.name),
      ("status_interval_secs", Value.int c.statusIntervalSecs.toNat)]

/-- The entry that the tables of peers make, if there are any. -/
def Config.peerEntries (c : Config) : List (String × Value) :=
  if c.peers.isEmpty then [] else [("peers", .array (c.peers.map fun p => .table false p.values))]

/-- All entries of a document with only those intervals that are kept. -/
def Config.entries (keepRaft : String → Bool) (c : Config) : List (String × Value) :=
  c.values ++ c.peerEntries ++ [("raft", .table false (c.raft.values.filter fun s => keepRaft s.1))]

/-- The lines of a document with only those keys that are kept. -/
def Config.steps (keep keepRaft : String → Bool) (c : Config) : List Reader.Line :=
  settingSteps (c.values.filter fun s => keep s.1)
    ++ (if keep "peers" then (c.peers.map Peer.values).flatMap (nextSteps "peers") else [])
    ++ (if keep "raft" then tableSteps "raft" (c.raft.values.filter fun s => keepRaft s.1) else [])

/-- A setting as it is written, and as it is read. -/
def Sets (written : String × String) (read : String × Value) : Prop :=
  written.1 = read.1 ∧ Reader.isBareName written.1.toList = true ∧ Denotes written.2.toList read.2

/-- What is kept as it is written is kept as it is read. -/
theorem forall₂_sets_filter {l : List (String × String)} {sets : List (String × Value)}
    (h : List.Forall₂ Sets l sets) (keep : String → Bool) :
    List.Forall₂ Sets (l.filter fun s => keep s.1) (sets.filter fun s => keep s.1) :=
  List.rel_filter (fun _ _ hset => by simp only [hset.1]) h

/-! ## reading lines -/

open Reader (Line Amounts)

theorem amounts_settings {l : List (String × String)} {sets : List (String × Value)}
    (h : List.Forall₂ Sets l sets) {t : List Char} {ls : List Line} (ht : Amounts t ls) :
    Amounts ((Config.settingLines l).toList ++ t) (settingSteps sets ++ ls) := by
  induction h with
  | nil => exact ht
  | @cons s e l sets hset _ ih =>
      obtain ⟨hkey, hbare, hvalue⟩ := hset
      have hline := ih.setting hbare hvalue
      rw [String.ofList_toList, hkey] at hline
      have htext : (Config.settingLines (s :: l)).toList ++ t
          = e.1.toList ++ ' ' :: '=' :: ' '
            :: (s.2.toList ++ '\n' :: ((Config.settingLines l).toList ++ t)) := by
        simp [Config.settingLines_cons, Config.settingLine, hkey]
      rw [htext]
      exact hline

section Spelled

variable {spell : String → String} (hspell : ∀ s, Spells (spell s).toList s.toList)

/-- A number that fits is written and read as one. -/
theorem sets_number {key : String} {n : Nat} (hkey : Reader.isBareName key.toList = true)
    (h : n ≤ greatestNumber) : Sets (key, Decimal.text n) (key, .int n) :=
  ⟨rfl, hkey, denotes_digits h⟩

theorem sets_bool {key : String} (hkey : Reader.isBareName key.toList = true) (b : Bool) :
    Sets (key, Config.boolText b) (key, .bool b) :=
  ⟨rfl, hkey, denotes_bool b⟩

theorem forall₂_timing {t : Timing} (h : t.Fits) : List.Forall₂ Sets t.settings t.values :=
  .cons (sets_number (by decide) h.1) <| .cons (sets_number (by decide) h.2.1) <|
    .cons (sets_number (by decide) h.2.2) .nil

include hspell

theorem sets_text {key : String} (hkey : Reader.isBareName key.toList = true) (s : String) :
    Sets (key, spell s) (key, .text s) := by
  have hvalue := denotes_of_spells (hspell s)
  rw [String.ofList_toList] at hvalue
  exact ⟨rfl, hkey, hvalue⟩

theorem forall₂_optional {key : String} (hkey : Reader.isBareName key.toList = true)
    (o : Option String) :
    List.Forall₂ Sets (o.toList.map fun s => (key, spell s))
      (o.toList.map fun s => (key, Value.text s)) := by
  cases o with
  | none => exact .nil
  | some s => exact .cons (sets_text hspell hkey s) .nil

theorem forall₂_peer {p : Peer} (h : p.Fits) :
    List.Forall₂ Sets (p.settings spell) p.values :=
  .cons (sets_number (by decide) h) <| .cons (sets_text hspell (by decide) p.addr) <|
    .cons (sets_bool (by decide) p.isVoter) .nil

theorem forall₂_config {c : Config} (h : c.Fits) :
    List.Forall₂ Sets (c.settings spell) c.values := by
  obtain ⟨hid, hstatus, -, -⟩ := h
  have hport : c.bindPort.toNat ≤ greatestNumber := by
    have := c.bindPort.toNat_lt
    rw [greatestNumber]
    omega
  have hpeers : List.Forall₂ Sets (if c.peers.isEmpty then [("peers", "[]")] else [])
      (if c.peers.isEmpty then [("peers", .array [])] else []) := by
    split
    · exact .cons ⟨rfl, by decide, denotes_nothing⟩ .nil
    · exact .nil
  unfold Config.settings Config.values
  refine List.rel_append (List.rel_append (List.rel_append (List.rel_append (List.rel_append
    (List.rel_append ?_ ?_) ?_) ?_) ?_) ?_) ?_
  · exact .cons (sets_number (by decide) hid) .nil
  · exact forall₂_optional hspell (by decide) c.hostname
  · exact .cons (sets_text hspell (by decide) _) (.cons (sets_number (by decide) hport) .nil)
  · exact forall₂_optional hspell (by decide) c.advertiseAddr
  · exact .cons (sets_text hspell (by decide) _) .nil
  · exact hpeers
  · exact .cons (sets_bool (by decide) _) <| .cons (sets_text hspell (by decide) _) <|
      .cons (sets_number (by decide) hstatus) .nil

theorem amounts_peerTables {peers : List Peer} (h : ∀ p ∈ peers, p.Fits) {t : List Char}
    {ls : List Line} (ht : Amounts t ls) :
    Amounts ((Config.peerTables spell peers).toList ++ t)
      ((peers.map Peer.values).flatMap (nextSteps "peers") ++ ls) := by
  induction peers with
  | nil => simpa [Config.peerTables] using ht
  | cons p peers ih =>
      obtain ⟨hp, h⟩ := List.forall_mem_cons.1 h
      have hlines := (amounts_settings (forall₂_peer hspell hp) (ih h)).next
        (n := "peers".toList) (by decide)
      have htext : (Config.peerTables spell (p :: peers)).toList ++ t
          = '\n' :: '[' :: '[' :: ("peers".toList ++ ']' :: ']' :: '\n'
            :: ((Config.settingLines (p.settings spell)).toList
              ++ ((Config.peerTables spell peers).toList ++ t))) := by
        simp [Config.peerTables_cons]
      rw [htext]
      exact hlines.feed

/-- The lines of a document. -/
theorem amounts_document {c : Config} (h : c.Fits) (keep keepRaft : String → Bool) :
    Amounts (c.document spell keep keepRaft).toList (c.steps keep keepRaft) := by
  have hraft : Amounts (if keep "raft" then
        Config.timingTable (c.raft.settings.filter fun s => keepRaft s.1) else "").toList
      (if keep "raft" then tableSteps "raft" (c.raft.values.filter fun s => keepRaft s.1)
        else []) := by
    split
    · have hlines := (amounts_settings (forall₂_sets_filter (forall₂_timing h.2.2.2) keepRaft)
        .nil).table (n := "raft".toList) (by decide)
      simpa [Config.timingTable, tableSteps] using hlines.feed
    · exact .nil
  have hpeers {t : List Char} {ls : List Line} (ht : Amounts t ls) :
      Amounts ((if keep "peers" then Config.peerTables spell c.peers else "").toList ++ t)
        ((if keep "peers" then (c.peers.map Peer.values).flatMap (nextSteps "peers") else [])
          ++ ls) := by
    split
    · exact amounts_peerTables hspell h.2.2.1 ht
    · exact ht
  have hall := amounts_settings (forall₂_sets_filter (forall₂_config hspell h) keep) (hpeers hraft)
  simpa [Config.document, Config.steps] using hall

end Spelled

/-! ## reading tables -/

theorem nodup_timing (t : Timing) : (t.values.map Prod.fst).Nodup := by
  show Timing.keys.Nodup
  decide

theorem nodup_peer (p : Peer) : (p.values.map Prod.fst).Nodup := by
  show Peer.keys.Nodup
  decide

theorem nodup_config (c : Config) : (c.values.map Prod.fst).Nodup := by
  unfold Config.values
  cases c.hostname <;> cases c.advertiseAddr <;> cases c.peers.isEmpty <;> simp


/-- The settings outside of tables hold no tables: they make the only entry for peers if there are
none, and none for the intervals. -/
theorem lookup_values_raft (c : Config) : c.values.lookup "raft" = none := by
  unfold Config.values
  cases c.hostname <;> cases c.advertiseAddr <;> cases c.peers.isEmpty <;> simp [lookup_cons_eq]

theorem lookup_values_peers {c : Config} (h : c.peers ≠ []) : c.values.lookup "peers" = none := by
  unfold Config.values
  cases c.hostname <;> cases c.advertiseAddr <;> simp [lookup_cons_eq, h]

/-- Peers are an array of tables, except that there is no table if there are none. -/
theorem foldlM_peers (c : Config) (keep : String → Bool) {entries : Entries}
    (hnew : c.peers ≠ [] → entries.find "peers" = none) (current : List String) :
    ∃ (tables : Entries) (current' : List String),
      (if keep "peers" then (c.peers.map Peer.values).flatMap (nextSteps "peers") else []).foldlM
          Draft.add ⟨entries, current⟩ = some ⟨entries ++ tables, current'⟩
        ∧ tables.find "raft" = none
        ∧ Item.entryValues false tables = c.peerEntries.filter fun e => keep e.1 := by
  by_cases hkeep : keep "peers"
  · by_cases hempty : c.peers = []
    · exact ⟨[], current, by simp [hempty], rfl, by simp [Config.peerEntries, hempty]; rfl⟩
    · have hdistinct : ∀ sets ∈ c.peers.map Peer.values, (sets.map Prod.fst).Nodup := by
        intro sets hsets
        obtain ⟨p, -, rfl⟩ := List.mem_map.1 hsets
        exact nodup_peer p
      obtain ⟨current', hfold⟩ := foldlM_tables (hnew hempty)
        (by simpa using hempty) hdistinct current
      have harray : Item.tableValues false ((c.peers.map Peer.values).map settingEntries)
          = c.peers.map fun p => .table false p.values := by
        rw [tableValues_settingEntries, List.map_map]
        rfl
      refine ⟨_, current', by rw [if_pos hkeep]; exact hfold, rfl, ?_⟩
      rw [Item.entryValues, Item.toValue, harray, Config.peerEntries,
        if_neg (by simpa using hempty)]
      simp [Item.entryValues, hkeep]
  · refine ⟨[], current, by simp [hkeep], rfl, ?_⟩
    rw [Config.peerEntries]
    split
    · rfl
    · simp [hkeep, Item.entryValues]

/-- The intervals are a table, also if nothing is in it. -/
theorem foldlM_raft (t : Timing) (keep keepRaft : String → Bool) {entries : Entries}
    (hnew : entries.find "raft" = none) (current : List String) :
    ∃ (table : Entries) (current' : List String),
      (if keep "raft" then tableSteps "raft" (t.values.filter fun s => keepRaft s.1)
          else []).foldlM Draft.add ⟨entries, current⟩ = some ⟨entries ++ table, current'⟩
        ∧ Item.entryValues false table
          = [("raft", Value.table false (t.values.filter fun s => keepRaft s.1))].filter
            fun e => keep e.1 := by
  by_cases hkeep : keep "raft"
  · have hfold := foldlM_table hnew
      ((nodup_timing t).sublist (List.filter_sublist.map _) :
        ((t.values.filter fun s => keepRaft s.1).map Prod.fst).Nodup) current
    refine ⟨_, _, by rw [if_pos hkeep]; exact hfold, ?_⟩
    simp [Item.entryValues, Item.toValue, entryValues_settingEntries, hkeep]
  · exact ⟨[], current, by simp [hkeep], by simp [hkeep, Item.entryValues]⟩

/-- What is left of a document's lines makes what is left of its entries. -/
theorem foldlM_steps (c : Config) (keep keepRaft : String → Bool) :
    ∃ d : Draft, (c.steps keep keepRaft).foldlM Draft.add ⟨[], []⟩ = some d
      ∧ d.entries.toValue false = .table false ((c.entries keepRaft).filter fun e => keep e.1) := by
  let front := settingEntries (c.values.filter fun s => keep s.1)
  have hfront : (settingSteps (c.values.filter fun s => keep s.1)).foldlM Draft.add ⟨[], []⟩
      = some ⟨front, []⟩ :=
    grows_document.foldlM [] (fun _ _ => rfl) ((nodup_config c).sublist (List.filter_sublist.map _))
  have hnew {key : String} (h : c.values.lookup key = none) : front.find key = none := by
    rw [find_settingEntries, lookup_filter_names, h]
    simp
  obtain ⟨tables, current, htables, hraft, htableValues⟩ :=
    foldlM_peers c keep (fun h => hnew (lookup_values_peers h)) []
  have hnew' : Entries.find (front ++ tables) "raft" = none := by
    rw [Entries.find, List.lookup_append, show front.lookup "raft" = none from
      hnew (lookup_values_raft c)]
    exact hraft
  obtain ⟨table, current', htable, htableValue⟩ :=
    foldlM_raft c.raft keep keepRaft hnew' current
  refine ⟨⟨front ++ tables ++ table, current'⟩, ?_, ?_⟩
  · rw [Config.steps, List.foldlM_append, List.foldlM_append, hfront]
    show ((List.foldlM Draft.add _ _).bind _) = _
    rw [htables]
    exact htable
  · rw [Entries.toValue, entryValues_append, entryValues_append, entryValues_settingEntries,
      htableValues, htableValue, Config.entries, List.filter_append, List.filter_append]

/-! ## settings from tables -/

theorem word?_int (n : UInt64) : word? (.int n.toNat) = some n := by
  have hle : (0 : Int) ≤ n.toNat ∧ (n.toNat : Int) ≤ (18446744073709551615 : Nat) := by
    have := n.toNat_lt
    omega
  rw [word?, nat?, if_pos hle]
  simp

theorem half?_int (n : UInt16) : half? (.int n.toNat) = some n := by
  have hle : (0 : Int) ≤ n.toNat ∧ (n.toNat : Int) ≤ (65535 : Nat) := by
    have := n.toNat_lt
    omega
  rw [half?, nat?, if_pos hle]
  simp

/-- A member that is not kept is its default. -/
theorem orDefault_kept {α : Type} {r : Value → Option α} {v : Value} {a : α} (h : r v = some a)
    (d : α) (kept : Bool) :
    orDefault r d (if kept then some v else none) = some (if kept then a else d) := by
  cases kept with
  | false => rfl
  | true => exact h

/-- A text that may be absent is absent by default. -/
theorem orDefault_optional {d : Option String} (h : d = none) (o : Option String) (kept : Bool) :
    orDefault (fun v => v.text?.map some) d (if kept then o.map Value.text else none)
      = some (if kept then o else d) := by
  subst h
  cases kept with
  | false => rfl
  | true => cases o <;> rfl

theorem Peer.ofToml?_values (p : Peer) : Peer.ofToml? (.table false p.values) = some p := by
  have hid : required word? (some (.int p.nodeId.toNat)) = some p.nodeId := word?_int p.nodeId
  show (do
    return Peer.mk (← required word? (some (.int p.nodeId.toNat)))
      (← required text? (some (.text p.addr))) (← required bool? (some (.bool p.isVoter)))) = some p
  rw [hid]
  rfl

theorem Timing.ofToml?_values (t : Timing) (keep : String → Bool) :
    Timing.ofToml? (.table false (t.values.filter fun s => keep s.1)) = some (t.restrict keep) := by
  have hmembers : members? Timing.keys (.table false (t.values.filter fun s => keep s.1))
      = some [if keep "heartbeat_interval_ms" then some (.int t.heartbeatIntervalMs.toNat)
        else none,
        if keep "election_timeout_min_ms" then some (.int t.electionTimeoutMinMs.toNat) else none,
        if keep "election_timeout_max_ms" then some (.int t.electionTimeoutMaxMs.toNat)
        else none] := by
    simp only [members?, Timing.keys, List.map_cons, List.map_nil, lookup_filter_names]
    rfl
  rw [Timing.ofToml?, hmembers]
  simp only [Option.bind_eq_bind, Option.bind_some, orDefault_kept (word?_int _)]
  rfl

theorem DecodePolicy.ofToml?_text (p : DecodePolicy) :
    DecodePolicy.ofToml? (.text p.name) = some p := by
  cases p <;> rfl

theorem Peer.mapM_ofToml?_values (peers : List Peer) :
    (peers.map fun p => Value.table false p.values).mapM Peer.ofToml? = some peers := by
  induction peers with
  | nil => rfl
  | cons p peers ih =>
      rw [List.map_cons, List.mapM_cons, Peer.ofToml?_values, ih]
      rfl

namespace Config

theorem lookup_optional (name key : String) (o : Option String) :
    (o.toList.map fun s => (name, Value.text s)).lookup key
      = if key = name then o.map Value.text else none := by
  cases o <;> simp [lookup_cons_eq]

/-- What stands at each key of a whole document. -/
theorem lookup_entries (c : Config) (keepRaft : String → Bool) :
    (keys.map fun key => (c.entries keepRaft).lookup key)
      = [some (.int c.nodeId.toNat), c.hostname.map .text, some (.text c.bindAddr),
        some (.int c.bindPort.toNat), c.advertiseAddr.map .text, some (.text c.dataDir),
        some (.array (c.peers.map fun p => .table false p.values)), some (.bool c.bootstrap),
        some (.table false (c.raft.values.filter fun s => keepRaft s.1)),
        some (.text c.onDecodeError.name), some (.int c.statusIntervalSecs.toNat)] := by
  -- Without peers their entry is a line; with peers it is what their tables make.
  cases hempty : c.peers with
  | nil =>
      simp [keys, entries, values, peerEntries, hempty, lookup_cons_eq, lookup_optional,
        List.lookup_append]
  | cons p peers =>
      simp [keys, entries, values, peerEntries, hempty, lookup_cons_eq, lookup_optional,
        List.lookup_append]

theorem ofToml?_entries (c : Config) (keep keepRaft : String → Bool) :
    ofToml? (.table false ((c.entries keepRaft).filter fun e => keep e.1))
      = some (c.restrict keep keepRaft) := by
  have hall := lookup_entries c keepRaft
  simp only [keys, List.map_cons, List.map_nil, List.cons.injEq, and_true] at hall
  obtain ⟨hid, hhostname, haddr, hport, hadvertise, hdir, hpeers, hbootstrap, hraft, hpolicy,
    hstatus⟩ := hall
  have hmembers : members? keys (.table false ((c.entries keepRaft).filter fun e => keep e.1))
      = some (keys.map fun key => if keep key then (c.entries keepRaft).lookup key else none) := by
    simp only [members?, lookup_filter_names]
  have hitems : ((Value.array (c.peers.map fun p => .table false p.values)).items?.bind
      fun items => items.mapM Peer.ofToml?) = some c.peers := Peer.mapM_ofToml?_values c.peers
  have hpeersKept := orDefault_kept
    (r := fun v => v.items?.bind fun items => items.mapM Peer.ofToml?) hitems default.peers
    (keep "peers")
  have hhostnameKept := orDefault_optional (d := default.hostname) rfl c.hostname (keep "hostname")
  have hadvertiseKept :=
    orDefault_optional (d := default.advertiseAddr) rfl c.advertiseAddr (keep "advertise_addr")
  have htext (s : String) : (Value.text s).text? = some s := rfl
  have hbool (b : Bool) : (Value.bool b).bool? = some b := rfl
  rw [ofToml?, hmembers]
  simp only [keys, List.map_cons, List.map_nil, hid, hhostname, haddr, hport, hadvertise, hdir,
    hpeers, hbootstrap, hraft, hpolicy, hstatus, Option.bind_eq_bind, Option.bind_some]
  simp only [Option.bind_some, orDefault_kept (word?_int _), hhostnameKept,
    orDefault_kept (htext _), orDefault_kept (half?_int _), hadvertiseKept, hpeersKept,
    orDefault_kept (hbool _), orDefault_kept (Timing.ofToml?_values _ _),
    orDefault_kept (DecodePolicy.ofToml?_text _)]
  rfl

/-- **What is left of a document** is read as the settings that are kept, with defaults for those
that are not. -/
theorem parseToml?_document {spell : String → String}
    (hspell : ∀ s, Spells (spell s).toList s.toList) {c : Config} (h : c.Fits)
    (keep keepRaft : String → Bool) :
    parseToml? (c.document spell keep keepRaft) = some (c.restrict keep keepRaft) := by
  obtain ⟨d, hfold, hvalue⟩ := foldlM_steps c keep keepRaft
  have hparse := parse?_of_amounts (amounts_document hspell h keep keepRaft) hfold
  rw [parseToml?, hparse, Option.bind_some, hvalue, ofToml?_entries]

end Config

end ControlPlane
