import ControlPlane.Proofs.Storage.Snapshot

/-!
# ControlPlane.Proofs.Storage.Overlap

A snapshot that is built while other work goes on.  A build reads what is applied, takes a number
and puts the snapshot (`Overlap.advance`), and between those accesses entries are applied and
snapshots installed (`Overlap.next`).  Wherever they fall, the current snapshot covers first entries
of the log, and exactly those up to the position that it names (`Reachable.consistent`).  Whether it
ever goes back is another matter.  It does not as long as nothing is installed while a snapshot is
being built (`covered_le_of_apart`).  But what is installed meanwhile has gone by the time the build
ends, since the build then puts what it read before (`goes_back_of_install`).
-/

namespace ControlPlane.Storage

open Consensus
open Json (parseBytes_writeBytes)

/-! ## accesses -/

/-- How far building a snapshot has come. -/
inductive Build
  | idle
  | read (a : Applied)
  | numbered (a : Applied) (number : UInt64)

/-- What the snapshot that is being built will be of. -/
def Build.seen? : Build → Option Applied
  | .idle => none
  | .read a => some a
  | .numbered a _ => some a

/-- A storage, and a build that goes on beside it. -/
structure Overlap where
  storage : Storage
  build : Build

/-- An access to the storage: the next one of the build, or one that applies an entry or installs a
snapshot. -/
inductive Access
  | advance
  | apply (e : Entry)
  | install (snapshot : Snapshot)

namespace Overlap

/-- The build makes its next access.  It ends where it cannot read what is applied. -/
def advance (o : Overlap) : Overlap :=
  match o.build with
  | .idle =>
    match loadApplied o.storage.disk with
    | .error _ => o
    | .ok a => { o with build := .read a }
  | .read a => ⟨o.storage.takeNumber.2, .numbered a o.storage.takeNumber.1⟩
  | .numbered a number => ⟨o.storage.putSnapshot (snapshotOf a number), .idle⟩

/-- What an access leads to. -/
def next (o : Overlap) : Access → Overlap
  | .advance => o.advance
  | .apply e => { o with storage := (Operation.apply [e]).run o.storage }
  | .install snapshot => { o with storage := (Operation.install snapshot).run o.storage }

/-- A build begins with what is applied on disk. -/
theorem advance_idle {s : Storage} {a : Applied} (h : loadApplied s.disk = .ok a) :
    advance ⟨s, .idle⟩ = ⟨s, .read a⟩ := by
  simp only [advance, h]

/-- Undisturbed, the accesses of a build are a build. -/
theorem advance_undisturbed (s : Storage) :
    advance^[3] ⟨s, .idle⟩ = ⟨Operation.build.run s, .idle⟩ := by
  cases hload : loadApplied s.disk with
  | error error =>
      have hstuck : advance ⟨s, .idle⟩ = ⟨s, .idle⟩ := by simp only [advance, hload]
      rw [Function.iterate_fixed hstuck, Operation.run, buildSnapshot, hload]
  | ok a =>
      rw [Operation.run, buildSnapshot_of_load hload, Function.iterate_succ_apply,
        advance_idle hload]
      rfl

end Overlap

/-! ## positions -/

/-- How far a position reaches: up to the index behind it. -/
def reach (last : Option LogId) : Nat := (last.map (·.index.toNat + 1)).getD 0

/-- More entries of a log reach further. -/
theorem reach_mono {p q : List Entry} (hq : Increasing q) (h : p <+: q) :
    reach (Applied.after p).lastApplied ≤ reach (Applied.after q).lastApplied := by
  obtain ⟨r, rfl⟩ := h
  rcases List.eq_nil_or_concat' r with rfl | ⟨r, e, rfl⟩
  · rw [List.append_nil]
  · rcases List.eq_nil_or_concat' p with rfl | ⟨p, e', rfl⟩
    · exact Nat.zero_le _
    · have hlt : e'.logId.index < e.logId.index :=
        (List.pairwise_append.1 hq).2.2 e' (List.mem_append_right _ List.mem_cons_self) e
          (List.mem_append_right _ List.mem_cons_self)
      rw [← List.append_assoc]
      simp only [Applied.after, List.getLast?_concat, Option.map_some, reach, Option.getD_some]
      exact Nat.succ_le_succ (Nat.le_of_lt (UInt64.lt_iff_toNat_lt.1 hlt))

/-- How far the snapshot reaches that is kept of a state. -/
def StateView.covered (v : StateView) : Nat := reach (v.current.bind (·.about.lastLogId))

/-- How far the current snapshot of a storage reaches. -/
def covered (s : Storage) : Nat :=
  match s.currentSnapshot with
  | .ok current => reach (current.bind (·.about.lastLogId))
  | .error _ => 0

theorem Keeps.covered_eq {s : Storage} {v : StateView} (h : Keeps s v) : s.covered = v.covered := by
  rw [covered, h.current, StateView.covered]

/-- Installing a snapshot of first entries of a log is having applied these. -/
theorem StateView.after_install (v : StateView) {snapshot : Snapshot} {entries : List Entry}
    (h : Covers snapshot entries) : v.after (.install snapshot)
      = { v with applied := Applied.after entries, current := some snapshot } := by
  simp only [StateView.after, h.data, parseBytes_writeBytes, h.installed_eq]

/-! ## what is permitted -/

namespace Overlap

/-- What may be done to a replica of a log: to apply the entry where the log goes on, and to install
a snapshot of first entries that reaches further than what is applied. -/
def Permitted (L : List Entry) (o : Overlap) : Access → Prop
  | .advance => True
  | .apply e => Admissible L o.storage (.apply [e])
  | .install snapshot => Admissible L o.storage (.install snapshot) ∧
      ∀ last membership, o.storage.applied = .ok (last, membership) →
        reach last < reach snapshot.about.lastLogId

/-- What may be done if nothing is to be installed while a snapshot is being built. -/
def Apart (L : List Entry) (o : Overlap) : Access → Prop
  | .install snapshot => Permitted L o (.install snapshot) ∧ o.build = .idle
  | c => Permitted L o c

theorem Apart.permitted {L : List Entry} {o : Overlap} {c : Access} (h : Apart L o c) :
    Permitted L o c := by
  cases c with
  | advance => exact h
  | apply e => exact h
  | install snapshot => exact h.1

/-- What a new storage and a build beside it can come to. -/
inductive Reachable (may : Overlap → Access → Prop) : Overlap → Prop
  | start {policy : DecodePolicy} {s : Storage} (h : open? Disk.empty policy = some s) :
    Reachable may ⟨s, .idle⟩
  | next {o : Overlap} (h : Reachable may o) {c : Access} (hc : may o c) : Reachable may (o.next c)

theorem Reachable.permitted {L : List Entry} {o : Overlap} (h : Reachable (Apart L) o) :
    Reachable (Permitted L) o := by
  induction h with
  | start h => exact .start h
  | next _ hc ih => exact ih.next hc.permitted

/-! ## what is kept -/

/-- What is known of a storage and a build beside it.  The storage holds first entries of the log,
and its current snapshot covers some of these; so does what the build has read. -/
structure Tracks (L : List Entry) (o : Overlap) (v : StateView) (held : List Entry) : Prop where
  keeps : Keeps o.storage v
  ofLog : held <+: L
  applied : v.applied = Applied.after held
  current : ∀ snapshot ∈ v.current, ∃ covered, covered <+: held ∧ Covers snapshot covered
  seen : ∀ a ∈ o.build.seen?, ∃ read, read <+: held ∧ a = Applied.after read

namespace Tracks

variable {L held : List Entry} {o : Overlap} {v : StateView}

theorem holds (h : Tracks L o v held) : o.storage.Holds held where
  memory := by rw [← h.keeps.state, h.applied]
  disk := by rw [h.keeps.applied, h.applied]

/-- The current snapshot does not reach further than what is applied. -/
theorem covered_le (hL : Increasing L) (h : Tracks L o v held) :
    o.storage.covered ≤ reach v.applied.lastApplied := by
  rw [h.keeps.covered_eq, StateView.covered, h.applied]
  cases hcurrent : v.current with
  | none => exact Nat.zero_le _
  | some snapshot =>
      obtain ⟨covered, hcovered, hcovers⟩ := h.current snapshot hcurrent
      rw [Option.bind_some, hcovers.lastLogId]
      exact reach_mono (hL.sublist h.ofLog.sublist) hcovered

/-- Neither does what the build has read. -/
theorem reach_seen_le (hL : Increasing L) (h : Tracks L o v held) {a : Applied}
    (ha : a ∈ o.build.seen?) : reach a.lastApplied ≤ reach v.applied.lastApplied := by
  obtain ⟨read, hread, rfl⟩ := h.seen a ha
  rw [h.applied]
  exact reach_mono (hL.sublist h.ofLog.sublist) hread

/-- What is installed reaches further than what is applied. -/
theorem reach_applied_lt (h : Tracks L o v held) {snapshot : Snapshot}
    (hc : Permitted L o (.install snapshot)) :
    reach v.applied.lastApplied < reach snapshot.about.lastLogId := by
  rw [h.applied]
  exact hc.2 _ _ h.holds.applied_eq

/-- Where an entry has been applied or stopped the storage, first entries of the log are held. -/
theorem apply (hL : Increasing L) (h : Tracks L o v held) {e : Entry}
    (hop : Admissible L o.storage (.apply [e])) :
    ∃ held', Tracks L (o.next (.apply e)) (v.after (.apply [e])) held' := by
  obtain ⟨before, rest, membership, hsplit, happlied⟩ := hop
  obtain rfl : held = before := h.holds.eq_before hL h.ofLog hsplit happlied
  have hkeeps : Keeps (o.next (.apply e)).storage (v.after (.apply [e])) :=
    h.keeps.run (.apply [e])
  by_cases hnone : progress v.policy [e] = 0
  · refine ⟨held, { h with keeps := hkeeps, applied := ?_ }⟩
    rw [StateView.after, Applied.behind_of_progress hnone]
    exact h.applied
  · have hone : progress v.policy [e] = 1 :=
      Nat.le_antisymm (progress_le v.policy [e]) (Nat.pos_of_ne_zero hnone)
    have hmore : held <+: held ++ [e] := List.prefix_append held [e]
    refine ⟨held ++ [e], hkeeps, ⟨rest, hsplit.symm⟩, ?_, fun snapshot hsnapshot => ?_,
      fun a ha => ?_⟩
    · rw [StateView.after, Applied.behind, hone, h.applied, Applied.after_concat]
      rfl
    · obtain ⟨covered, hcovered, hcovers⟩ := h.current snapshot hsnapshot
      exact ⟨covered, hcovered.trans hmore, hcovers⟩
    · obtain ⟨read, hread, hseen⟩ := h.seen a ha
      exact ⟨read, hread.trans hmore, hseen⟩

/-- A snapshot that is installed takes the place of both. -/
theorem install (hL : Increasing L) (h : Tracks L o v held) {snapshot : Snapshot}
    (hc : Permitted L o (.install snapshot)) :
    ∃ held', Tracks L (o.next (.install snapshot)) (v.after (.install snapshot)) held' := by
  have hfurther := h.reach_applied_lt hc
  obtain ⟨⟨covered, hcovered, hcovers⟩, -⟩ := hc
  rw [h.applied, hcovers.lastLogId] at hfurther
  -- what is covered reaches further than what was held, so the log has it further on
  have hmore : held <+: covered := by
    rcases List.prefix_or_prefix_of_prefix h.ofLog hcovered with hle | hle
    · exact hle
    · exact absurd (reach_mono (hL.sublist h.ofLog.sublist) hle) (Nat.not_le.2 hfurther)
  have hview := v.after_install hcovers
  refine ⟨covered, h.keeps.run (.install snapshot), hcovered, by rw [hview],
    fun snapshot' hsnapshot => ?_, fun a ha => ?_⟩
  · rw [hview, Option.mem_some_iff] at hsnapshot
    exact ⟨covered, List.prefix_rfl, hsnapshot ▸ hcovers⟩
  · obtain ⟨read, hread, hseen⟩ := h.seen a ha
    exact ⟨read, hread.trans hmore, hseen⟩

/-- The build reads what is held, and puts what it has read. -/
theorem advance (h : Tracks L o v held) : ∃ v', Tracks L o.advance v' held := by
  obtain ⟨s, build⟩ := o
  cases build with
  | idle =>
      refine ⟨v, ?_⟩
      rw [advance_idle h.keeps.applied]
      exact { h with
        seen := fun a ha => ⟨held, List.prefix_rfl, (Option.some.inj ha) ▸ h.applied⟩ }
  | read a => exact ⟨_, { h with keeps := h.keeps.takeNumber }⟩
  | numbered a number =>
      obtain ⟨read, hread, rfl⟩ := h.seen a rfl
      exact ⟨_,
        { h with
          keeps := h.keeps.putSnapshot _
          current := fun snapshot hsnapshot =>
            ⟨read, hread, (Option.some.inj hsnapshot) ▸ covers_snapshotOf read number⟩
          seen := fun a ha => nomatch ha }⟩

/-- **One access** keeps what is known. -/
theorem next (hL : Increasing L) (h : Tracks L o v held) {c : Access} (hc : Permitted L o c) :
    ∃ v' held', Tracks L (o.next c) v' held' := by
  cases c with
  | advance => exact h.advance.imp fun v' h' => ⟨held, h'⟩
  | apply e => exact ⟨_, h.apply hL hc⟩
  | install snapshot => exact ⟨_, h.install hL hc⟩

end Tracks

theorem exists_tracks_start {L : List Entry} {policy : DecodePolicy} {s : Storage}
    (h : open? Disk.empty policy = some s) : ∃ v, Tracks L ⟨s, .idle⟩ v [] := by
  cases h
  exact ⟨⟨Applied.initial, none, 0, policy⟩,
    { keeps := ⟨rfl, rfl, rfl, rfl, rfl⟩
      ofLog := List.nil_prefix
      applied := rfl
      current := fun _ hcurrent => nomatch hcurrent
      seen := fun _ hseen => nomatch hseen }⟩

theorem Reachable.exists_tracks {L : List Entry} (hL : Increasing L) {o : Overlap}
    (h : Reachable (Permitted L) o) : ∃ v held, Tracks L o v held := by
  induction h with
  | start hopen =>
      obtain ⟨v, hv⟩ := exists_tracks_start (L := L) hopen
      exact ⟨v, [], hv⟩
  | next _ hc ih =>
      obtain ⟨v, held, h⟩ := ih
      exact h.next hL hc

/-- **A snapshot that is built beside other work is consistent**, and so is any other that is the
current one meanwhile.  What is applied, in memory and on disk, is what first entries of the log
amount to; the current snapshot is of some of these, up to the position that it names, with the
membership in force there; and so is what the build has read. -/
theorem Reachable.consistent {L : List Entry} (hL : Increasing L) {o : Overlap}
    (h : Reachable (Permitted L) o) :
    ∃ held, held <+: L ∧ o.storage.Holds held ∧
      (∃ current, o.storage.currentSnapshot = .ok current ∧
        ∀ snapshot ∈ current, ∃ covered, covered <+: held ∧ Covers snapshot covered) ∧
      ∀ a ∈ o.build.seen?, ∃ read, read <+: held ∧ a = Applied.after read := by
  obtain ⟨v, held, h⟩ := h.exists_tracks hL
  exact ⟨held, h.ofLog, h.holds, ⟨v.current, h.keeps.current, h.current⟩, h.seen⟩

/-! ## how far the current snapshot reaches -/

section Covered

variable {L held : List Entry} {o : Overlap} {v : StateView}

theorem covered_apply (h : Keeps o.storage v) (e : Entry) :
    (o.next (.apply e)).storage.covered = o.storage.covered :=
  ((h.run (.apply [e])).covered_eq).trans h.covered_eq.symm

theorem covered_install (h : Keeps o.storage v) {snapshot : Snapshot}
    (hc : Permitted L o (.install snapshot)) :
    (o.next (.install snapshot)).storage.covered = reach snapshot.about.lastLogId := by
  obtain ⟨⟨entries, -, hcovers⟩, -⟩ := hc
  have hkeeps : Keeps (o.next (.install snapshot)).storage _ := h.run (.install snapshot)
  rw [hkeeps.covered_eq, v.after_install hcovers]
  rfl

/-- What is installed reaches further than the snapshot that was current before. -/
theorem covered_lt_install (hL : Increasing L) (h : Tracks L o v held) {snapshot : Snapshot}
    (hc : Permitted L o (.install snapshot)) :
    o.storage.covered < (o.next (.install snapshot)).storage.covered := by
  rw [covered_install h.keeps hc]
  exact Nat.lt_of_le_of_lt (h.covered_le hL) (h.reach_applied_lt hc)

/-- Only the last access of a build changes the current snapshot. -/
theorem covered_advance (h : Keeps o.storage v) :
    o.advance.storage.covered = match o.build with
      | .numbered a _ => reach a.lastApplied
      | _ => o.storage.covered := by
  obtain ⟨s, build⟩ := o
  cases build with
  | idle => rw [advance_idle h.applied]
  | read a => exact h.takeNumber.covered_eq.trans h.covered_eq.symm
  | numbered a number => exact (h.putSnapshot (snapshotOf a number)).covered_eq

end Covered

/-! ## builds apart from installations -/

/-- If nothing is installed while a snapshot is being built, this reaches as far as the current
one. -/
theorem Reachable.covered_le_seen {L : List Entry} (hL : Increasing L) {o : Overlap}
    (h : Reachable (Apart L) o) :
    ∀ a ∈ o.build.seen?, o.storage.covered ≤ reach a.lastApplied := by
  induction h with
  | start hopen => exact fun a ha => nomatch ha
  | @next o h c hc ih =>
      obtain ⟨v, held, htracks⟩ := h.permitted.exists_tracks hL
      intro a ha
      cases c with
      | apply e =>
          rw [covered_apply htracks.keeps]
          exact ih a ha
      | install snapshot =>
          have hidle : (o.next (.install snapshot)).build = .idle := hc.2
          rw [hidle] at ha
          cases ha
      | advance =>
          have hcovered := covered_advance htracks.keeps
          obtain ⟨s, build⟩ := o
          cases build with
          | idle =>
              rw [Overlap.next, advance_idle htracks.keeps.applied] at ha
              cases ha
              exact hcovered.trans_le (htracks.covered_le hL)
          | read b => exact hcovered.trans_le (ih a ha)
          | numbered b number => cases ha

/-- **Builds apart from installations never go back**: if nothing is installed while a snapshot is
being built, each access leaves a current snapshot that reaches at least as far. -/
theorem covered_le_of_apart {L : List Entry} (hL : Increasing L) {o : Overlap}
    (h : Reachable (Apart L) o) {c : Access} (hc : Apart L o c) :
    o.storage.covered ≤ (o.next c).storage.covered := by
  obtain ⟨v, held, htracks⟩ := h.permitted.exists_tracks hL
  cases c with
  | apply e => exact (covered_apply htracks.keeps e).ge
  | install snapshot => exact (covered_lt_install hL htracks hc.1).le
  | advance =>
      have hcovered := covered_advance htracks.keeps
      have hseen := h.covered_le_seen hL
      rw [next, hcovered]
      cases hbuild : o.build with
      | idle => exact Nat.le_refl _
      | read a => exact Nat.le_refl _
      | numbered a number => exact hseen a (by rw [hbuild]; rfl)

/-! ## builds that are overtaken -/

/-- The current snapshot reaches further than the one that is being built. -/
def Overtaken (o : Overlap) : Prop := ∃ a ∈ o.build.seen?, reach a.lastApplied < o.storage.covered

section Overtaken

variable {L held : List Entry} {o : Overlap} {v : StateView}

/-- What is installed overtakes a build. -/
theorem overtaken_install (hL : Increasing L) (h : Tracks L o v held) {a : Applied}
    (ha : a ∈ o.build.seen?) {snapshot : Snapshot} (hc : Permitted L o (.install snapshot)) :
    Overtaken (o.next (.install snapshot)) := by
  refine ⟨a, ha, ?_⟩
  rw [covered_install h.keeps hc]
  exact Nat.lt_of_le_of_lt (h.reach_seen_le hL ha) (h.reach_applied_lt hc)

/-- A build that is overtaken stays so until it ends, and then the current snapshot goes back. -/
theorem Overtaken.next (hL : Increasing L) (h : Tracks L o v held) (hover : Overtaken o)
    {c : Access} (hc : Permitted L o c) :
    Overtaken (o.next c) ∨ (o.next c).storage.covered < o.storage.covered := by
  obtain ⟨a, ha, hlt⟩ := hover
  cases c with
  | apply e =>
      refine .inl ⟨a, ha, ?_⟩
      rwa [covered_apply h.keeps]
  | install snapshot => exact .inl (overtaken_install hL h ha hc)
  | advance =>
      have hcovered := covered_advance h.keeps
      obtain ⟨s, build⟩ := o
      cases build with
      | idle => cases ha
      | read b => exact .inl ⟨a, ha, hlt.trans_eq hcovered.symm⟩
      | numbered b number =>
          cases ha
          exact .inr (hcovered.trans_lt hlt)

end Overtaken

/-- Accesses each of which is permitted where it is made. -/
def Runs (L : List Entry) (o : Overlap) : List Access → Prop
  | [] => True
  | c :: rest => Permitted L o c ∧ Runs L (o.next c) rest

/-- By the end of a build that is overtaken, the current snapshot has gone back. -/
theorem Overtaken.exists_goes_back {L : List Entry} (hL : Increasing L) (cs : List Access)
    {o : Overlap} (h : Reachable (Permitted L) o) (hover : Overtaken o) (hcs : Runs L o cs)
    (hend : (cs.foldl Overlap.next o).build = .idle) :
    ∃ before c after, cs = before ++ c :: after ∧
      ((before.foldl Overlap.next o).next c).storage.covered
        < (before.foldl Overlap.next o).storage.covered := by
  induction cs generalizing o with
  | nil =>
      obtain ⟨a, ha, -⟩ := hover
      rw [List.foldl_nil] at hend
      rw [hend] at ha
      cases ha
  | cons c rest ih =>
      obtain ⟨hc, hrest⟩ := hcs
      obtain ⟨v, held, htracks⟩ := h.exists_tracks hL
      rcases hover.next hL htracks hc with hover' | hback
      · obtain ⟨before, c', after, rfl, hback⟩ := ih (h.next hc) hover' hrest hend
        exact ⟨c :: before, c', after, rfl, hback⟩
      · exact ⟨[], c, rest, rfl, hback⟩

/-- **What is installed while a snapshot is being built does not stay**: whatever else is done, by
the time the build ends the current snapshot has gone back. -/
theorem goes_back_of_install {L : List Entry} (hL : Increasing L) {o : Overlap}
    (h : Reachable (Permitted L) o) (hbuild : o.build ≠ .idle) {snapshot : Snapshot}
    (cs : List Access) (hcs : Runs L o (.install snapshot :: cs))
    (hend : ((Access.install snapshot :: cs).foldl next o).build = .idle) :
    ∃ before c after, cs = before ++ c :: after ∧
      ((before.foldl next (o.next (.install snapshot))).next c).storage.covered
        < (before.foldl next (o.next (.install snapshot))).storage.covered := by
  obtain ⟨hc, hrest⟩ := hcs
  obtain ⟨v, held, htracks⟩ := h.exists_tracks hL
  obtain ⟨a, ha⟩ : ∃ a, a ∈ o.build.seen? := by
    cases hcase : o.build with
    | idle => exact absurd hcase hbuild
    | read a => exact ⟨a, rfl⟩
    | numbered a number => exact ⟨a, rfl⟩
  exact (overtaken_install hL htracks ha hc).exists_goes_back hL cs (h.next hc) hrest hend

/-- A log of one entry. -/
def soleLog : List Entry := [⟨⟨⟨1, 1⟩, 1⟩, .blank⟩]

/-- A new storage, of which a snapshot is being built. -/
def beginning : Overlap := advance ⟨create .halt, .idle⟩

/-- The snapshot of the whole log is installed, the build ends, and the snapshot of nothing is the
current one. -/
theorem goes_back_of_install_beginning :
    Increasing soleLog ∧ Reachable (Permitted soleLog) beginning ∧
      ∃ before c after, [Access.advance, .advance] = before ++ c :: after ∧
        let o := before.foldl next
          (beginning.next (.install (snapshotOf (Applied.after soleLog) 1)))
        (o.next c).storage.covered < o.storage.covered := by
  have hlog : Increasing soleLog := List.pairwise_singleton _ _
  have hopen : open? Disk.empty .halt = some (create .halt) := rfl
  have hreach : Reachable (Permitted soleLog) beginning :=
    .next (.start hopen) (c := .advance) trivial
  have hinstall : Permitted soleLog beginning
      (.install (snapshotOf (Applied.after soleLog) 1)) := by
    refine ⟨⟨soleLog, List.prefix_rfl, covers_snapshotOf soleLog 1⟩, fun last membership h => ?_⟩
    cases h
    decide
  exact ⟨hlog, hreach, goes_back_of_install hlog hreach (nofun) [.advance, .advance]
    ⟨hinstall, trivial, trivial, trivial⟩ rfl⟩

end Overlap

end ControlPlane.Storage
