import ControlPlane.Proofs.Storage.Agreement
import ControlPlane.Proofs.Storage.Durability

/-!
# ControlPlane.Proofs.Storage.Batches

Applying a batch is applying its entries one at a time.  The reference is a fold over what is
applied (`Applied.behind`): it knows neither memory nor disk, and it goes up to the first entry that
stops the storage (`stops`).  Behind a batch, memory and disk hold what the fold comes to
(`applyFrom_state`), and the outcomes are those of the entries (`applyFrom_outcomes`), unless an
entry stops it (`applyFrom_error`).  So it makes no difference where a batch is split
(`applyFrom_append`).
-/

namespace ControlPlane.Storage

open Consensus
open Json (parseBytes writeBytes parseBytes_writeBytes)

/-! ## one entry -/

/-- Why the bytes that an entry holds are no command; nothing if they are one, or if it holds
none. -/
def stray? (e : Entry) : Option Wire.DecodeError :=
  match e.payload with
  | .normal bytes =>
    match Command.decode bytes with
    | .ok _ => none
    | .error reason => some reason
  | _ => none

/-- Whether an entry stops a storage with this policy. -/
def stops (policy : DecodePolicy) (e : Entry) : Bool :=
  match policy with
  | .halt => (stray? e).isSome
  | .skip => false

/-- How many entries of a batch stand in front of the first that stops it. -/
def progress (policy : DecodePolicy) (es : List Entry) : Nat := es.findIdx (stops policy)

theorem progress_cons_of_stops {policy : DecodePolicy} {e : Entry} (h : stops policy e = true)
    (rest : List Entry) : progress policy (e :: rest) = 0 := by
  rw [progress, List.findIdx_cons, h, cond_true]

theorem progress_cons_of_not_stops {policy : DecodePolicy} {e : Entry}
    (h : stops policy e = false) (rest : List Entry) :
    progress policy (e :: rest) = progress policy rest + 1 := by
  rw [progress, List.findIdx_cons, h, cond_false]
  rfl

/-- What an entry comes to on a table. -/
def outcomeOn (t : Table) (e : Entry) : Outcome :=
  match e.payload with
  | .normal bytes =>
    match Command.decode bytes with
    | .ok c =>
      match t.apply c with
      | .ok _ => .applied
      | .error reason => .rejected reason
    | .error reason => .skipped reason.message
  | _ => .applied

/-- What is applied behind one more entry. -/
def Applied.next (a : Applied) (e : Entry) : Applied where
  lastApplied := some e.logId
  membership :=
    match e.payload with
    | .membership m => ⟨some e.logId, m⟩
    | _ => a.membership
  state := ⟨tableAfter a.state.table e, e.logId.index⟩

/-- What is applied behind a batch: behind each of its entries in turn, up to the first that stops
it. -/
def Applied.behind (a : Applied) (policy : DecodePolicy) (es : List Entry) : Applied :=
  (es.take (progress policy es)).foldl Applied.next a

/-- Nothing more is applied if the first entry stops a batch, or if it has none. -/
theorem Applied.behind_of_progress {policy : DecodePolicy} {es : List Entry}
    (h : progress policy es = 0) (a : Applied) : a.behind policy es = a := by
  rw [Applied.behind, h, List.take_zero, List.foldl_nil]

/-- An entry that stops a storage fails with the reason and its position. -/
theorem applyPayload_of_stops {policy : DecodePolicy} {e : Entry} (h : stops policy e = true)
    (state : State) :
    ∃ reason, stray? e = some reason ∧
      applyPayload policy state e = .error (.undecodable e.logId reason) := by
  cases policy with
  | skip => cases h
  | halt =>
      obtain ⟨reason, hreason⟩ := Option.isSome_iff_exists.1 h
      refine ⟨reason, hreason, ?_⟩
      unfold stray? at hreason
      unfold applyPayload
      cases hpayload : e.payload with
      | blank => simp [hpayload] at hreason
      | membership m => simp [hpayload] at hreason
      | normal bytes =>
          simp only [hpayload] at hreason ⊢
          cases hdecode : Command.decode bytes with
          | ok c => simp [hdecode] at hreason
          | error reason' =>
              simp only [hdecode, Option.some.injEq] at hreason
              rw [State.applyEncoded_of_error hdecode, hreason]

/-- Any other entry has its outcome, and changes the table as the log has it. -/
theorem applyPayload_of_not_stops {policy : DecodePolicy} {e : Entry}
    (h : stops policy e = false) (state : State) :
    ∃ state', applyPayload policy state e = .ok (outcomeOn state.table e, state') ∧
      state'.table = tableAfter state.table e := by
  have hok : ∃ state', applyPayload policy state e = .ok (outcomeOn state.table e, state') := by
    unfold applyPayload outcomeOn
    cases hpayload : e.payload with
    | blank => exact ⟨state, rfl⟩
    | membership m => exact ⟨state, rfl⟩
    | normal bytes =>
        cases hdecode : Command.decode bytes with
        | ok c =>
            have happly : (state.apply c).1 = match state.table.apply c with
                | .ok _ => .applied
                | .error reason => .rejected reason := by
              unfold State.apply
              cases state.table.apply c <;> rfl
            simp only [hdecode, State.applyEncoded_of_ok hdecode]
            exact ⟨(state.apply c).2, by rw [← happly]⟩
        | error reason =>
            simp only [hdecode, State.applyEncoded_of_error hdecode]
            cases policy with
            | skip => exact ⟨state, rfl⟩
            | halt => simp [stops, stray?, hpayload, hdecode] at h
  obtain ⟨state', hstate⟩ := hok
  exact ⟨state', hstate, table_of_applyPayload hstate⟩

/-- Storing twice is storing the second time. -/
theorem store_store (s : Storage) (a b : Applied) : (s.store a).store b = s.store b := by
  have hvalue : (fun key => if key = Key.applied then some (writeBytes b)
        else if key = Key.applied then some (writeBytes a) else s.disk.value key)
      = fun key => if key = Key.applied then some (writeBytes b) else s.disk.value key := by
    funext key
    by_cases hkey : key = Key.applied
    · rw [if_pos hkey, if_pos hkey]
    · rw [if_neg hkey, if_neg hkey, if_neg hkey]
  simp only [store, Disk.write, Disk.putValue, hvalue]

section Batches

variable {s : Storage} {a : Applied}

/-- An entry that stops a batch leaves everything as it is. -/
theorem applyFrom_cons_of_stops {e : Entry} (h : stops s.policy e = true) (m : StoredMembership)
    (rest : List Entry) :
    ∃ reason, stray? e = some reason ∧
      s.applyFrom m (e :: rest) = (.error (.undecodable e.logId reason), s) := by
  obtain ⟨reason, hreason, hpayload⟩ := applyPayload_of_stops h s.state
  refine ⟨reason, hreason, ?_⟩
  rw [applyFrom, applyEntry_of_error hpayload]

/-- Any other entry is stored with what it leads to, and the batch goes on from there. -/
theorem applyFrom_cons_of_not_stops (hstate : a.state = s.state) {e : Entry}
    (h : stops s.policy e = false) (rest : List Entry) :
    s.applyFrom a.membership (e :: rest) =
      (((s.store (a.next e)).applyFrom (a.next e).membership rest).1.map
          (outcomeOn a.state.table e :: ·),
        ((s.store (a.next e)).applyFrom (a.next e).membership rest).2) := by
  obtain ⟨state, hpayload, htable⟩ := applyPayload_of_not_stops h s.state
  have hmembership : nextMembership a.membership e = (a.next e).membership := by
    unfold nextMembership Applied.next
    cases e.payload <;> rfl
  have hnext : reached e a.membership state = a.next e := by
    rw [reached, hmembership, htable, ← hstate]
    rfl
  rw [applyFrom, applyEntry_of_ok hpayload, hnext, hmembership, hstate]

/-! ## batches -/

/-- Behind a batch, memory and disk hold what its entries lead to, up to the one that stops it. -/
theorem applyFrom_state (es : List Entry) (hstate : a.state = s.state) :
    (s.applyFrom a.membership es).2 =
      if progress s.policy es = 0 then s
      else s.store (a.behind s.policy es) := by
  induction es generalizing s a with
  | nil => rfl
  | cons e rest ih =>
      by_cases he : stops s.policy e = true
      · obtain ⟨reason, -, happly⟩ := applyFrom_cons_of_stops he a.membership rest
        rw [happly, progress_cons_of_stops he, if_pos rfl]
      · rw [Bool.not_eq_true] at he
        have hrest := ih (s := s.store (a.next e)) (a := a.next e) rfl
        have hpolicy : (s.store (a.next e)).policy = s.policy := rfl
        have hbehind : a.behind s.policy (e :: rest) = (a.next e).behind s.policy rest := by
          rw [Applied.behind, progress_cons_of_not_stops he, List.take_succ_cons, List.foldl_cons,
            Applied.behind]
        rw [applyFrom_cons_of_not_stops hstate he, hrest, hpolicy, hbehind,
          progress_cons_of_not_stops he, if_neg (Nat.succ_ne_zero _)]
        by_cases hk : progress s.policy rest = 0
        · rw [if_pos hk, Applied.behind_of_progress hk]
        · rw [if_neg hk, store_store]

/-- A batch that no entry stops has the outcomes of its entries. -/
theorem applyFrom_outcomes (es : List Entry) (hstate : a.state = s.state)
    (h : progress s.policy es = es.length) :
    (s.applyFrom a.membership es).1 =
      .ok (es.mapIdx fun i e => outcomeOn ((es.take i).foldl Applied.next a).state.table e) := by
  induction es generalizing s a with
  | nil => rfl
  | cons e rest ih =>
      by_cases he : stops s.policy e = true
      · rw [progress_cons_of_stops he] at h
        cases h
      · rw [Bool.not_eq_true] at he
        rw [progress_cons_of_not_stops he, List.length_cons, Nat.add_right_cancel_iff] at h
        have houtcomes := ih (s := s.store (a.next e)) (a := a.next e) rfl h
        rw [applyFrom_cons_of_not_stops hstate he, houtcomes, List.mapIdx_cons]
        rfl

/-- A batch that an entry stops fails with the position and the reason of the first such entry. -/
theorem applyFrom_error (es : List Entry) (hstate : a.state = s.state)
    (h : progress s.policy es < es.length) :
    ∃ reason, stray? es[progress s.policy es] = some reason ∧
      (s.applyFrom a.membership es).1 =
        .error (.undecodable es[progress s.policy es].logId reason) := by
  induction es generalizing s a with
  | nil => cases h
  | cons e rest ih =>
      by_cases he : stops s.policy e = true
      · obtain ⟨reason, hreason, happly⟩ := applyFrom_cons_of_stops he a.membership rest
        have hk := progress_cons_of_stops he rest
        refine ⟨reason, ?_, ?_⟩
        · simp only [hk, List.getElem_cons_zero]
          exact hreason
        · simp only [hk, List.getElem_cons_zero, happly]
      · rw [Bool.not_eq_true] at he
        have hk := progress_cons_of_not_stops he rest
        have hlt : progress s.policy rest < rest.length := by
          rw [hk, List.length_cons] at h
          exact Nat.lt_of_succ_lt_succ h
        obtain ⟨reason, hreason, herror⟩ := ih (s := s.store (a.next e)) (a := a.next e) rfl hlt
        refine ⟨reason, ?_, ?_⟩
        · simp only [hk, List.getElem_cons_succ]
          exact hreason
        · rw [applyFrom_cons_of_not_stops hstate he, herror]
          simp only [hk, List.getElem_cons_succ]
          rfl

/-! ## one batch behind another -/

/-- What goes on behind entries goes on from what they lead to, unless one of them stops it. -/
theorem applyFrom_append (es es' : List Entry) (hstate : a.state = s.state) :
    s.applyFrom a.membership (es ++ es') =
      match s.applyFrom a.membership es with
      | (.error error, s') => (.error error, s')
      | (.ok outcomes, s') =>
        ((s'.applyFrom (es.foldl Applied.next a).membership es').1.map (outcomes ++ ·),
          (s'.applyFrom (es.foldl Applied.next a).membership es').2) := by
  induction es generalizing s a with
  | nil =>
      have hmap : (s.applyFrom a.membership es').1.map ([] ++ ·)
          = (s.applyFrom a.membership es').1 := by
        cases (s.applyFrom a.membership es').1 <;> rfl
      simp only [List.nil_append, applyFrom, List.foldl_nil] at hmap ⊢
      rw [hmap]
  | cons e rest ih =>
      by_cases he : stops s.policy e = true
      · obtain ⟨reason, hreason, happly⟩ := applyFrom_cons_of_stops he a.membership rest
        obtain ⟨reason', hreason', happly'⟩ :=
          applyFrom_cons_of_stops he a.membership (rest ++ es')
        rw [hreason, Option.some.injEq] at hreason'
        rw [List.cons_append, happly', happly, hreason']
      · rw [Bool.not_eq_true] at he
        rw [List.cons_append, applyFrom_cons_of_not_stops hstate he,
          applyFrom_cons_of_not_stops hstate he, ih (s := s.store (a.next e)) (a := a.next e) rfl]
        cases (s.store (a.next e)).applyFrom (a.next e).membership rest with
        | mk result s' =>
            cases result with
            | error error => rfl
            | ok outcomes =>
                simp only [Except.map, List.foldl_cons]
                cases (s'.applyFrom (rest.foldl Applied.next (a.next e)).membership es').1 <;> rfl

end Batches

/-! ## batches against the reference -/

theorem progress_le (policy : DecodePolicy) (es : List Entry) : progress policy es ≤ es.length :=
  List.findIdx_le_length

section Reference

variable {s : Storage} {a : Applied}

theorem apply_eq_applyFrom (hload : loadApplied s.disk = .ok a) (es : List Entry) :
    s.apply es = s.applyFrom a.membership es := by
  rw [apply, hload]

/-- Memory holds what the entries of a batch lead to. -/
theorem state_apply (hload : loadApplied s.disk = .ok a) (hstate : a.state = s.state)
    (es : List Entry) :
    (s.apply es).2.state = (a.behind s.policy es).state := by
  rw [apply_eq_applyFrom hload, applyFrom_state es hstate]
  by_cases hk : progress s.policy es = 0
  · rw [if_pos hk, Applied.behind_of_progress hk, hstate]
  · rw [if_neg hk]
    rfl

/-- So does the disk. -/
theorem loadApplied_apply (hload : loadApplied s.disk = .ok a) (hstate : a.state = s.state)
    (es : List Entry) :
    loadApplied (s.apply es).2.disk = .ok (a.behind s.policy es) := by
  rw [apply_eq_applyFrom hload, applyFrom_state es hstate]
  by_cases hk : progress s.policy es = 0
  · rw [if_pos hk, Applied.behind_of_progress hk, hload]
  · rw [if_neg hk]
    exact loadApplied_of_some rfl

/-- A batch that succeeds has applied all its entries. -/
theorem progress_of_apply_ok (hload : loadApplied s.disk = .ok a) (hstate : a.state = s.state)
    {es : List Entry} {outcomes : List Outcome} (h : (s.apply es).1 = .ok outcomes) :
    progress s.policy es = es.length := by
  by_contra hk
  have hlt : progress s.policy es < es.length := lt_of_le_of_ne (progress_le s.policy es) hk
  obtain ⟨reason, -, herror⟩ := applyFrom_error es hstate hlt
  rw [apply_eq_applyFrom hload, herror] at h
  cases h

/-- A batch that succeeds may as well be split: what is behind it is applied behind it. -/
theorem apply_append_of_ok (hload : loadApplied s.disk = .ok a) (hstate : a.state = s.state)
    {es : List Entry} {outcomes : List Outcome} (h : (s.apply es).1 = .ok outcomes)
    (es' : List Entry) :
    s.apply (es ++ es') =
      (((s.apply es).2.apply es').1.map (outcomes ++ ·), ((s.apply es).2.apply es').2) := by
  have hnext := loadApplied_apply hload hstate es
  rw [Applied.behind, progress_of_apply_ok hload hstate h, List.take_length] at hnext
  rw [apply_eq_applyFrom hnext, apply_eq_applyFrom hload, apply_eq_applyFrom hload,
    applyFrom_append es es' hstate]
  rw [apply_eq_applyFrom hload] at h
  cases hes : s.applyFrom a.membership es with
  | mk result s' =>
      rw [hes] at h
      cases h
      rfl

/-- A batch that fails leaves nothing to what is behind it. -/
theorem apply_append_of_error (hload : loadApplied s.disk = .ok a) (hstate : a.state = s.state)
    {es : List Entry} {error : Error} (h : (s.apply es).1 = .error error) (es' : List Entry) :
    s.apply (es ++ es') = (.error error, (s.apply es).2) := by
  rw [apply_eq_applyFrom hload] at h ⊢
  rw [apply_eq_applyFrom hload, applyFrom_append es es' hstate]
  cases hes : s.applyFrom a.membership es with
  | mk result s' =>
      rw [hes] at h
      cases h
      rfl

end Reference

/-- **A batch is its entries, one at a time**, whatever was done to the storage before.  Let `a` be
what is applied, in memory and on disk alike.  Applying a batch changes the storage in nothing but
that it then holds, in both places, what its entries lead to from `a`, up to the first that stops
it; and nothing is stored if that is the first of all.  If no entry stops it, it has one outcome for
each of them, that of the entry on the table behind those before it; otherwise it fails with the
position of the one that does, and the reason.  So it makes no difference whether entries are
applied in one batch or in two. -/
theorem apply_eq_foldl {s : Storage} (hs : Reachable s) :
    ∃ a, loadApplied s.disk = .ok a ∧ a.state = s.state ∧
      (∀ es,
        (s.apply es).2 =
          (if progress s.policy es = 0 then s else s.store (a.behind s.policy es)) ∧
        (s.apply es).2.state = (a.behind s.policy es).state ∧
        loadApplied (s.apply es).2.disk = .ok (a.behind s.policy es) ∧
        (progress s.policy es = es.length →
          (s.apply es).1 = .ok (es.mapIdx fun i e =>
            outcomeOn ((es.take i).foldl Applied.next a).state.table e)) ∧
        (∀ h : progress s.policy es < es.length,
          ∃ reason, stray? es[progress s.policy es] = some reason ∧
            (s.apply es).1 = .error (.undecodable es[progress s.policy es].logId reason))) ∧
      ∀ es es',
        (∀ outcomes, (s.apply es).1 = .ok outcomes →
          s.apply (es ++ es') =
            (((s.apply es).2.apply es').1.map (outcomes ++ ·), ((s.apply es).2.apply es').2)) ∧
        (∀ error, (s.apply es).1 = .error error →
          s.apply (es ++ es') = (.error error, (s.apply es).2)) := by
  obtain ⟨a, hload, hstate⟩ := hs.sound.inSync
  refine ⟨a, hload, hstate, fun es => ⟨?_, state_apply hload hstate es,
    loadApplied_apply hload hstate es, fun h => ?_, fun h => ?_⟩, fun es es' =>
    ⟨fun outcomes h => apply_append_of_ok hload hstate h es',
      fun error h => apply_append_of_error hload hstate h es'⟩⟩
  · rw [apply_eq_applyFrom hload, applyFrom_state es hstate]
  · rw [apply_eq_applyFrom hload, applyFrom_outcomes es hstate h]
  · rw [apply_eq_applyFrom hload]
    exact applyFrom_error es hstate h

/-- A batch whose second entry is no command. -/
def strayBatch : List Entry :=
  [⟨⟨⟨1, 1⟩, 1⟩, .membership Membership.empty⟩, ⟨⟨⟨1, 1⟩, 2⟩, .normal [255]⟩,
    ⟨⟨⟨1, 1⟩, 3⟩, .blank⟩]

theorem apply_eq_foldl_strayBatch :
    Reachable (create .halt) ∧
      ∃ a : Applied, loadApplied ((create .halt).apply strayBatch).2.disk = .ok a ∧
        a.lastApplied = some ⟨⟨1, 1⟩, 1⟩ ∧
        a.membership = ⟨some ⟨⟨1, 1⟩, 1⟩, Membership.empty⟩ ∧
        ∃ reason, ((create .halt).apply strayBatch).1
          = .error (.undecodable ⟨⟨1, 1⟩, 2⟩ reason) := by
  have hnew : Reachable (create .halt) := .start .halt rfl
  obtain ⟨a, -, -, hbatches, -⟩ := apply_eq_foldl hnew
  obtain ⟨-, -, hload, -, herror⟩ := hbatches strayBatch
  have hprogress : progress (create .halt).policy strayBatch = 1 := by decide
  obtain ⟨reason, -, hreason⟩ := herror (by decide)
  simp only [Applied.behind, hprogress] at hload hreason
  exact ⟨hnew, _, hload, rfl, rfl, reason, hreason⟩

end ControlPlane.Storage
