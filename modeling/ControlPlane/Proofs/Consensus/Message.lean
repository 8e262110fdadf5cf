import ControlPlane.Consensus.Message.Form
import ControlPlane.Proofs.Consensus.Form
import ControlPlane.Proofs.Json.Failing

/-!
# ControlPlane.Proofs.Consensus.Message

Messages between nodes are read back from JSON.  All requests are, and all answers of a node that
runs.  The answer of a node that has stopped gives the cause, behind which there may be others; it
is read back if there are not too many of them (`Answer.readBack`), and not read at all if there are
(`Answer.fails`).
-/

namespace ControlPlane

open Json

instance : LawfulForm Empty where
  ofJson?_toJson e := nomatch e
  reads e := nomatch e

namespace Consensus

/-! ## votes -/

instance : LawfulForm Vote where
  ofJson?_toJson v := by
    show (do
      return Vote.mk (← ofJson? (toJson v.leaderId)) (← ofJson? (toJson v.committed))) = some v
    simp
  reads _ := Reads.record (by decide) (.cons (reads _) (.cons (reads _) .nil))

instance : LawfulForm VoteRequest where
  ofJson?_toJson r := by
    show (do
      return VoteRequest.mk (← ofJson? (toJson r.vote)) (← ofJson? (toJson r.lastLogId))) = some r
    simp
  reads _ := Reads.record (by decide) (.cons (reads _) (.cons (reads _) .nil))

instance : LawfulForm VoteResponse where
  ofJson?_toJson r := by
    show (do
      return VoteResponse.mk (← ofJson? (toJson r.vote)) (← ofJson? (toJson r.granted))
        (← ofJson? (toJson r.lastLogId))) = some r
    simp
  reads _ := Reads.record (by decide) (.cons (reads _) (.cons (reads _) (.cons (reads _) .nil)))

/-! ## entries -/

instance : LawfulForm AppendRequest where
  ofJson?_toJson r := by
    show (do
      return AppendRequest.mk (← ofJson? (toJson r.vote)) (← ofJson? (toJson r.previous))
        (← ofJson? (toJson r.entries)) (← ofJson? (toJson r.leaderCommit))) = some r
    simp
  reads _ := Reads.record (by decide)
    (.cons (reads _) (.cons (reads _) (.cons (reads _) (.cons (reads _) .nil))))

instance : LawfulForm AppendResponse where
  ofJson?_toJson
    | .success => rfl
    | .partialSuccess upTo => by
        show (do return AppendResponse.partialSuccess (← ofJson? (toJson upTo)))
          = some (.partialSuccess upTo)
        simp
    | .conflict => rfl
    | .higherVote vote => by
        show (do return AppendResponse.higherVote (← ofJson? (toJson vote)))
          = some (.higherVote vote)
        simp
  reads
    | .success => Reads.choice_name rfl
    | .partialSuccess upTo => Reads.choice_value rfl (reads upTo)
    | .conflict => Reads.choice_name rfl
    | .higherVote vote => Reads.choice_value rfl (reads vote)

/-! ## snapshots -/

instance : LawfulForm InstallRequest where
  ofJson?_toJson r := by
    show (do
      return InstallRequest.mk (← ofJson? (toJson r.vote)) (← ofJson? (toJson r.about))
        (← ofJson? (toJson r.offset)) (← ofJson? (toJson r.data))
        (← ofJson? (toJson r.done))) = some r
    simp
  reads _ := Reads.record (by decide)
    (.cons (reads _) (.cons (reads _) (.cons (reads _) (.cons (reads _) (.cons (reads _) .nil)))))

instance : LawfulForm InstallResponse where
  ofJson?_toJson r := by
    show (do return InstallResponse.mk (← ofJson? (toJson r.vote))) = some r
    simp
  reads _ := Reads.record (by decide) (.cons (reads _) .nil)

instance : LawfulForm Segment where
  ofJson?_toJson s := by
    show (do return Segment.mk (← ofJson? (toJson s.id)) (← ofJson? (toJson s.offset))) = some s
    simp
  reads _ := Reads.record (by decide) (.cons (reads _) (.cons (reads _) .nil))

instance : LawfulForm InstallError where
  ofJson?_toJson
    | .mismatch expected got => by
        show (do
          return InstallError.mismatch (← ofJson? (toJson expected)) (← ofJson? (toJson got)))
            = some (.mismatch expected got)
        simp
  reads
    | .mismatch expected got => Reads.choice_value rfl
        (Reads.record (by decide) (.cons (reads expected) (.cons (reads got) .nil)))

/-! ## nodes that have stopped -/

instance : LawfulForm Signature where
  ofJson?_toJson s := by
    show (do
      return Signature.mk (← ofJson? (toJson s.lastLogId))
        (← ofJson? (toJson s.lastMembershipLogId)) (← ofJson? (toJson s.snapshotId))) = some s
    simp
  reads _ := Reads.record (by decide) (.cons (reads _) (.cons (reads _) (.cons (reads _) .nil)))

instance : NeverNull Signature where
  head?_ne _ := by
    show some '{' ≠ some 'n'
    decide

instance : LawfulForm FaultSubject where
  ofJson?_toJson
    | .store => rfl
    | .vote => rfl
    | .logs => rfl
    | .log id => by
        show (do return FaultSubject.log (← ofJson? (toJson id))) = some (.log id)
        simp
    | .apply id => by
        show (do return FaultSubject.apply (← ofJson? (toJson id))) = some (.apply id)
        simp
    | .stateMachine => rfl
    | .snapshot signature => by
        show (do return FaultSubject.snapshot (← ofJson? (toJson signature)))
          = some (.snapshot signature)
        simp
    | .nothing => rfl
  reads
    | .store => Reads.choice_name rfl
    | .vote => Reads.choice_name rfl
    | .logs => Reads.choice_name rfl
    | .log id => Reads.choice_value rfl (reads id)
    | .apply id => Reads.choice_value rfl (reads id)
    | .stateMachine => Reads.choice_name rfl
    | .snapshot signature => Reads.choice_value rfl (reads signature)
    | .nothing => Reads.choice_name rfl

instance : LawfulForm FaultVerb where
  ofJson?_toJson v := by cases v <;> rfl
  reads v := by cases v <;> exact Reads.choice_name rfl

namespace Cause

/-- The number of causes behind each other, this one included. -/
def depth : Cause → Nat
  | mk _ _ none _ _ => 1
  | mk _ _ (some behind) _ _ => behind.depth + 1

/-- A cause is written as a record. -/
theorem json_eq_record (c : Cause) : ∃ members, c.json = .record members := by
  obtain ⟨kind, message, source, context, trace⟩ := c
  cases source <;> exact ⟨_, rfl⟩

/-- A cause stands for itself, if so many behind each other are looked at. -/
theorem ofJsonWithin?_json {depth : Nat} {c : Cause} (h : c.depth ≤ depth) :
    ofJsonWithin? depth c.json = some c := by
  induction depth generalizing c with
  | zero =>
      obtain ⟨kind, message, source, context, trace⟩ := c
      cases source <;> simp [Cause.depth] at h
  | succ depth ih =>
      obtain ⟨kind, message, source, context, trace⟩ := c
      cases source with
      | none =>
          show (do
            return mk (← ofJson? (toJson kind)) (← ofJson? (toJson message)) none
              (← ofJson? (toJson context)) (← ofJson? (toJson trace))) = _
          simp
      | some behind =>
          have hbehind := ih (Nat.le_of_succ_le_succ h)
          obtain ⟨members, hmembers⟩ := behind.json_eq_record
          rw [hmembers] at hbehind
          have hvalues : (mk kind message (some behind) context trace).json.values?
              = some [toJson kind, toJson message, behind.json, toJson context, toJson trace] := rfl
          simp only [ofJsonWithin?, hvalues, Option.bind_eq_bind, Option.bind_some]
          rw [hmembers]
          simp [hbehind]

theorem nodup_membersWith (source : Reader Json) :
    ((membersWith source).map (·.name)).Nodup := by
  show ["typ", "msg", "source", "context", "backtrace"].Nodup
  decide

/-- A cause is read, if so many behind each other are. -/
theorem reads_json {depth : Nat} {c : Cause} (h : c.depth ≤ depth) :
    Reads (readerWithin depth) c.json := by
  induction depth generalizing c with
  | zero =>
      obtain ⟨kind, message, source, context, trace⟩ := c
      cases source <;> simp [Cause.depth] at h
  | succ depth ih =>
      obtain ⟨kind, message, source, context, trace⟩ := c
      have hnames := nodup_membersWith (readerWithin depth)
      cases source with
      | none =>
          exact Reads.record hnames (.cons (reads _) (.cons (reads _)
            (.cons (Reads.optional_null _) (.cons (reads _) (.cons (reads _) .nil)))))
      | some behind =>
          obtain ⟨members, hmembers⟩ := behind.json_eq_record
          have hhead : behind.json.compact.head? ≠ some 'n' := by
            rw [hmembers]
            show some '{' ≠ some 'n'
            decide
          exact Reads.record hnames (.cons (reads _) (.cons (reads _)
            (.cons ((ih (Nat.le_of_succ_le_succ h)).optional hhead)
              (.cons (reads _) (.cons (reads _) .nil)))))

theorem readBack {c : Cause} (h : c.depth ≤ maxDepth) : ReadBack c :=
  ⟨ofJsonWithin?_json h, reads_json h⟩

/-- A cause is not read if there are more behind each other than are looked at. -/
theorem fails_json {depth : Nat} {c : Cause} (h : depth < c.depth) :
    Fails (readerWithin depth) c.json := by
  induction depth generalizing c with
  | zero => exact fun _ => ⟨.notJson, rfl⟩
  | succ depth ih =>
      obtain ⟨kind, message, source, context, trace⟩ := c
      cases source with
      | none => simp [Cause.depth] at h
      | some behind =>
          obtain ⟨members, hmembers⟩ := behind.json_eq_record
          have hbehind : Fails (Reader.optional (readerWithin depth)) behind.json :=
            (ih (Nat.lt_of_succ_lt_succ h)).optional (by rw [hmembers]; rfl) (by decide) (by decide)
          exact Fails.record (nodup_membersWith _)
            (.tail (reads _) (.tail (reads _) (.head hbehind)))

end Cause

theorem StorageFault.readBack {f : StorageFault} (h : f.cause.depth ≤ Cause.maxDepth) :
    ReadBack f where
  ofJson? := by
    show (do
      return StorageFault.mk (← ofJson? (toJson f.subject)) (← ofJson? (toJson f.verb))
        (← ofJson? (toJson f.cause)) (← ofJson? (toJson f.trace))) = some f
    simp [(Cause.readBack h).ofJson?]
  reads := Reads.record (by decide)
    (.cons (reads _) (.cons (reads _) (.cons (Cause.readBack h).reads (.cons (reads _) .nil))))

theorem StorageFault.fails {f : StorageFault} (h : Cause.maxDepth < f.cause.depth) :
    Fails (Form.reader StorageFault) (toJson f) :=
  Fails.record (by decide) (.tail (reads _) (.tail (reads _) (.head (Cause.fails_json h))))

/-- Whether there are not too many causes behind each other to be read. -/
def Fatal.Readable : Fatal → Prop
  | .storage fault => fault.cause.depth ≤ Cause.maxDepth
  | .panicked => True
  | .stopped => True

instance : DecidablePred Fatal.Readable := fun f =>
  match f with
  | .storage _ => inferInstanceAs (Decidable (_ ≤ _))
  | .panicked => .isTrue trivial
  | .stopped => .isTrue trivial

theorem Fatal.readBack {f : Fatal} (h : f.Readable) : ReadBack f := by
  cases f with
  | storage fault =>
      have hfault : ReadBack fault := StorageFault.readBack h
      refine ⟨?_, Reads.choice_value rfl (Reads.choice_value rfl
        (Reads.record (by decide) (.cons hfault.reads .nil)))⟩
      show (do return Fatal.storage (← ofJson? (toJson fault))) = some (.storage fault)
      simp [hfault.ofJson?]
  | panicked => exact ⟨rfl, Reads.choice_name rfl⟩
  | stopped => exact ⟨rfl, Reads.choice_name rfl⟩

theorem Fatal.fails {f : Fatal} (h : ¬ f.Readable) : Fails (Form.reader Fatal) (toJson f) := by
  cases f with
  | storage fault =>
      exact .choice_value rfl (.choice_value rfl
        (.record (by decide) (.head (StorageFault.fails (Nat.lt_of_not_le h)))))
  | panicked => exact absurd trivial h
  | stopped => exact absurd trivial h

section Answer

variable {ε α : Type} [Form ε] [LawfulForm ε] [Form α] [LawfulForm α]

/-- Whether an answer can be read: only that of a node that has stopped may have too many causes
behind each other. -/
def Answer.Readable : Answer ε α → Prop
  | .error (.fatal reason) => reason.Readable
  | _ => True

instance : DecidablePred (Answer.Readable (ε := ε) (α := α)) := fun a =>
  match a with
  | .ok _ => .isTrue trivial
  | .error (.request _) => .isTrue trivial
  | .error (.fatal reason) => inferInstanceAs (Decidable reason.Readable)

theorem Refusal.readBack_request (reason : ε) : ReadBack (Refusal.request reason) where
  ofJson? := by
    show (do return Refusal.request (← ofJson? (toJson reason))) = some (.request reason)
    simp
  reads := Reads.choice_value rfl (reads reason)

omit [LawfulForm ε] in
theorem Refusal.readBack_fatal {reason : Fatal} (h : reason.Readable) :
    ReadBack (Refusal.fatal (ε := ε) reason) where
  ofJson? := by
    show (do return Refusal.fatal (← ofJson? (toJson reason))) = some (.fatal reason)
    simp [(Fatal.readBack h).ofJson?]
  reads := Reads.choice_value rfl (Fatal.readBack h).reads

omit [LawfulForm ε] [LawfulForm α] in
theorem Answer.readBack_error {reason : Refusal ε} (h : ReadBack reason) :
    ReadBack (.error reason : Answer ε α) where
  ofJson? := by
    show (do return (Except.error (← ofJson? (toJson reason)) : Answer ε α)) = some (.error reason)
    simp [h.ofJson?]
  reads := Reads.choice_value rfl h.reads

/-- **Answers** are read back, unless too many causes stand behind each other. -/
theorem Answer.readBack {a : Answer ε α} (h : a.Readable) : ReadBack a := by
  match a, h with
  | .ok a, _ =>
      refine ⟨?_, Reads.choice_value rfl (reads a)⟩
      show (do return (Except.ok (← ofJson? (toJson a)) : Answer ε α)) = some (.ok a)
      simp
  | .error (.request reason), _ => exact Answer.readBack_error (Refusal.readBack_request reason)
  | .error (.fatal reason), h => exact Answer.readBack_error (Refusal.readBack_fatal h)

omit [LawfulForm ε] [LawfulForm α] in
/-- With too many causes, an answer is not read. -/
theorem Answer.fails {a : Answer ε α} (h : ¬ a.Readable) :
    Fails (Form.reader (Answer ε α)) (toJson a) := by
  match a, h with
  | .error (.fatal reason), h => exact .choice_value rfl (.choice_value rfl (Fatal.fails h))
  | .error (.request reason), h => exact absurd trivial h
  | .ok a, h => exact absurd trivial h

end Answer

end Consensus

end ControlPlane
