import ControlPlane.Command.Delivery

/-!
# ControlPlane.Proofs.Command.Delivery

What a sink has taken when a command was written to it.  A sink with limited room takes at least one
byte a call as long as it has room, and may interrupt calls, though not the same one for ever
(`Device.HasRoom`).  So every call makes progress in the end, writing ends behind a number of calls
(`Device.Ends`), and what the sink has taken is the front of the command that there is room for
(`Device.HasRoom.exists_ends`).
-/

namespace ControlPlane

open Wire

/-! ## sinks with room -/

namespace Device

variable {σ : Type} {d : Device σ}

/-- The answer that a sink comes to when the same bytes are offered after each interruption. -/
inductive Yields (d : Device σ) (b : Bytes) : σ → SinkAnswer → σ → Prop
  | now {s s' : σ} {answer : SinkAnswer} (h : d.write s b = (answer, s')) : Yields d b s answer s'
  | later {s s' s'' : σ} {answer : SinkAnswer} (h : d.write s b = (.interrupted, s'))
    (hrest : Yields d b s' answer s'') : Yields d b s answer s''

/-- A sink that has room for so many bytes yet, by its state.  It may interrupt calls, but in the
end it takes any number of the bytes that it is offered and at least one; without room it takes none
or fails. -/
def HasRoom (d : Device σ) (room : σ → Nat) : Prop :=
  ∀ s b, b ≠ [] → ∃ answer s', d.Yields b s answer s' ∧
    ((∃ n, answer = .takes n ∧ 0 < n ∧ n ≤ b.length ∧ n ≤ room s ∧ room s' = room s - n) ∨
      room s = 0 ∧ (answer = .takes 0 ∨ ∃ reason, answer = .fails reason))

theorem hasRoom_limited {chunk : Nat} (hchunk : 0 < chunk) (finalFailure : Option String) :
    (limited chunk finalFailure).HasRoom id := by
  intro room b hb
  have hlen : 0 < b.length := List.length_pos_iff.2 hb
  cases room with
  | zero =>
      refine ⟨_, _, .now rfl, .inr ⟨rfl, ?_⟩⟩
      cases finalFailure with
      | none => exact .inl rfl
      | some reason => exact .inr ⟨reason, rfl⟩
  | succ room =>
      refine ⟨_, _, .now rfl, .inl ⟨_, rfl, ?_, ?_, ?_, rfl⟩⟩
      · exact Nat.lt_min.2 ⟨hchunk, Nat.lt_min.2 ⟨Nat.succ_pos room, hlen⟩⟩
      · exact Nat.le_trans (Nat.min_le_right ..) (Nat.min_le_right ..)
      · exact Nat.le_trans (Nat.min_le_right ..) (Nat.min_le_left ..)

/-- A sink that interrupts a call first has the room that it has without. -/
theorem HasRoom.interruptedOnce {room : σ → Nat} (h : d.HasRoom room) :
    d.interruptedOnce.HasRoom fun s => room s.2 := by
  have hcalm {b : Bytes} {s s' : σ} {answer : SinkAnswer} (hyields : d.Yields b s answer s') :
      d.interruptedOnce.Yields b (false, s) answer (false, s') := by
    induction hyields with
    | now h => exact .now (by simp only [Device.interruptedOnce, h])
    | later h _ ih => exact .later (by simp only [Device.interruptedOnce, h]) ih
  rintro ⟨interrupts, s⟩ b hb
  obtain ⟨answer, s', hyields, hanswer⟩ := h s b hb
  refine ⟨answer, (false, s'), ?_, hanswer⟩
  cases interrupts with
  | false => exact hcalm hyields
  | true => exact .later rfl (hcalm hyields)

/-- Writing these bytes takes just so many calls, and this comes of it. -/
def Ends (d : Device σ) (s : σ) (b : Bytes) (calls : Nat) (x : Delivery σ) : Prop :=
  ∀ n, d.deliver n s b = if calls ≤ n then some x else none

namespace Ends

variable {s : σ} {b : Bytes} {calls : Nat} {x : Delivery σ}

theorem nil (d : Device σ) (s : σ) : d.Ends s [] 0 ⟨.ok (), [], s⟩ := by
  intro n
  rw [deliver.eq_def, if_pos rfl, if_pos (Nat.zero_le n)]

/-- What comes of the first call takes one call less. -/
theorem of_succ (hb : b ≠ [])
    (h : ∀ n, d.deliver (n + 1) s b = if calls ≤ n then some x else none) :
    d.Ends s b (calls + 1) x := by
  intro n
  cases n with
  | zero => rw [deliver, if_neg hb, if_neg (Nat.not_succ_le_zero calls)]
  | succ n => simp only [h, Nat.succ_le_succ_iff]

/-- An interrupted call is repeated. -/
theorem interrupted {s' : σ} (hb : b ≠ []) (hwrite : d.write s b = (.interrupted, s'))
    (h : d.Ends s' b calls x) : d.Ends s b (calls + 1) x :=
  of_succ hb fun n => by
    rw [deliver, if_neg hb, hwrite]
    exact h n

/-- Behind the bytes that are taken, the others are offered. -/
theorem takes {s' : σ} {n : Nat} (hb : b ≠ []) (hwrite : d.write s b = (.takes (n + 1), s'))
    (h : d.Ends s' (b.drop (n + 1)) calls x) :
    d.Ends s b (calls + 1) { x with taken := b.take (n + 1) ++ x.taken } :=
  of_succ hb fun more => by
    rw [deliver, if_neg hb, hwrite]
    simp only [h more]
    split <;> rfl

theorem fails {s' : σ} {reason : String} (hb : b ≠ [])
    (hwrite : d.write s b = (.fails reason, s')) :
    d.Ends s b 1 ⟨.error (.sink reason), [], s'⟩ :=
  of_succ hb fun n => by rw [deliver, if_neg hb, hwrite, if_pos (Nat.zero_le n)]

/-- A sink that takes nothing fails. -/
theorem takes_zero {s' : σ} (hb : b ≠ []) (hwrite : d.write s b = (.takes 0, s')) :
    d.Ends s b 1 ⟨.error (.sink "failed to write whole buffer"), [], s'⟩ :=
  of_succ hb fun n => by rw [deliver, if_neg hb, hwrite, if_pos (Nat.zero_le n)]

end Ends

/-- What comes of the call that is not interrupted comes of the first one. -/
theorem Yields.exists_ends {b : Bytes} {s s' : σ} {answer : SinkAnswer} {x : Delivery σ}
    (hyields : d.Yields b s answer s') (hb : b ≠ [])
    (h : ∀ s₀, d.write s₀ b = (answer, s') → ∃ calls, d.Ends s₀ b calls x) :
    ∃ calls, d.Ends s b calls x := by
  induction hyields with
  | now hwrite => exact h _ hwrite
  | later hwrite _ ih =>
      obtain ⟨calls, hends⟩ := ih h
      exact ⟨calls + 1, hends.interrupted hb hwrite⟩

end Device

/-! ## what has been delivered -/

/-- Of these bytes, as many were taken as there was room for, from the front.  All is well exactly
if that was enough for all of them; else the writing has failed, and says so. -/
structure Delivery.Within {σ : Type} (x : Delivery σ) (b : Bytes) (room : Nat) : Prop where
  taken : x.taken = b.take (min room b.length)
  ok_iff : x.result = .ok () ↔ b.length ≤ room
  failure : room < b.length → ∃ reason, x.result = .error (.sink reason)

namespace Delivery.Within

variable {σ : Type}

theorem nil (room : Nat) (s : σ) : Within ⟨.ok (), [], s⟩ [] room where
  taken := by simp
  ok_iff := by simp
  failure h := absurd h (Nat.not_lt_zero room)

/-- A sink without room has taken nothing. -/
theorem noRoom {b : Bytes} (hb : b ≠ []) (reason : String) (s : σ) :
    Within ⟨.error (.sink reason), [], s⟩ b 0 where
  taken := by simp
  ok_iff := by simp [hb]
  failure _ := ⟨reason, rfl⟩

/-- What is taken off the front comes on top of what is taken of the rest. -/
theorem append_take {x : Delivery σ} {b : Bytes} {n room : Nat} (hn : n ≤ b.length)
    (hroom : n ≤ room) (h : x.Within (b.drop n) (room - n)) :
    Within { x with taken := b.take n ++ x.taken } b room := by
  obtain ⟨htaken, hok, hfailure⟩ := h
  rw [List.length_drop] at htaken hok hfailure
  refine ⟨?_, ?_, fun hlt => hfailure (by omega)⟩
  · have hmin : min room b.length = n + min (room - n) (b.length - n) := by omega
    show b.take n ++ x.taken = _
    rw [htaken, hmin, List.take_add]
  · rw [show b.length ≤ room ↔ b.length - n ≤ room - n by omega]
    exact hok

end Delivery.Within

/-- Writing to a sink with room ends.  By induction on the number of bytes: in the end at least one
of them is taken, or there is no room. -/
theorem Device.HasRoom.exists_ends {σ : Type} {d : Device σ} {room : σ → Nat}
    (h : d.HasRoom room) (s : σ) (b : Bytes) :
    ∃ x calls, d.Ends s b calls x ∧ x.Within b (room s) := by
  induction hlen : b.length using Nat.strongRecOn generalizing s b with
  | ind length ih =>
  by_cases hb : b = []
  · subst hb
    exact ⟨_, 0, .nil d s, .nil _ s⟩
  obtain ⟨answer, s', hyields, hanswer⟩ := h s b hb
  rcases hanswer with ⟨n, rfl, hpos, hle, hfit, hroom⟩ | ⟨hroom, rfl | ⟨reason, rfl⟩⟩
  · obtain ⟨n, rfl⟩ := Nat.exists_eq_succ_of_ne_zero (Nat.pos_iff_ne_zero.1 hpos)
    obtain ⟨x, calls, hends, hwithin⟩ := ih (b.drop (n + 1)).length
      (by rw [List.length_drop]; omega) s' _ rfl
    obtain ⟨calls, hall⟩ := hyields.exists_ends hb fun _ hwrite => ⟨_, hends.takes hb hwrite⟩
    exact ⟨_, calls, hall, .append_take hle hfit (hroom ▸ hwithin)⟩
  · obtain ⟨calls, hall⟩ := hyields.exists_ends hb fun _ hwrite => ⟨_, .takes_zero hb hwrite⟩
    exact ⟨_, calls, hall, hroom ▸ .noRoom hb _ s'⟩
  · obtain ⟨calls, hall⟩ := hyields.exists_ends hb fun _ hwrite => ⟨_, .fails hb hwrite⟩
    exact ⟨_, calls, hall, hroom ▸ .noRoom hb reason s'⟩

/-- **A command is delivered, or a reported front of it.**  A sink with room for so many bytes gets
the front of the command that there is room for, however it parts the bytes among its calls and
whichever of them it interrupts; writing ends behind a number of calls, and has succeeded exactly if
there is room for all.  A command that cannot be encoded touches no sink. -/
theorem Command.writeTo_within {σ : Type} {d : Device σ} {room : σ → Nat} (h : d.HasRoom room)
    (s : σ) (c : Command) :
    (∀ bytes, c.encode = .ok bytes → ∃ x calls,
      (∀ n, c.writeTo d n s = if calls ≤ n then some x else none) ∧ x.Within bytes (room s)) ∧
    ∀ e, c.encode = .error e → ∀ (τ : Type) (sink : Device τ) (n : Nat) (t : τ),
      c.writeTo sink n t = some ⟨.error e, [], t⟩ := by
  constructor
  · intro bytes hbytes
    obtain ⟨x, calls, hends, hwithin⟩ := h.exists_ends s bytes
    refine ⟨x, calls, fun n => ?_, hwithin⟩
    rw [writeTo, hbytes]
    exact hends n
  · intro e he τ sink n t
    rw [writeTo, he]

/-- A sink that interrupts every other call and takes at most four bytes a call.  Its state is how
many bytes it has room for, and whether the call before was interrupted. -/
def Device.restless : Device (Nat × Bool) where
  write s b :=
    if s.2 then (.takes (min 4 (min b.length s.1)), (s.1 - min 4 (min b.length s.1), false))
    else (.interrupted, (s.1, true))

theorem Device.hasRoom_restless : restless.HasRoom Prod.fst := by
  have hcalm : ∀ room b, b ≠ [] → ∃ answer s', restless.Yields b (room, true) answer s' ∧
      ((∃ n, answer = .takes n ∧ 0 < n ∧ n ≤ b.length ∧ n ≤ room ∧ s'.1 = room - n) ∨
        room = 0 ∧ (answer = .takes 0 ∨ ∃ reason, answer = .fails reason)) := by
    intro room b hb
    have hlen : 0 < b.length := List.length_pos_iff.2 hb
    refine ⟨_, _, .now rfl, ?_⟩
    rcases Nat.eq_zero_or_pos room with rfl | hpos
    · exact .inr ⟨rfl, .inl (by simp)⟩
    · exact .inl ⟨_, rfl, by omega, by omega, by omega, rfl⟩
  rintro ⟨room, _ | _⟩ b hb
  · obtain ⟨answer, s', hyields, hanswer⟩ := hcalm room b hb
    exact ⟨answer, s', .later rfl hyields, hanswer⟩
  · exact hcalm room b hb

/-- A command of ten bytes to a sink with room for seven of them, and to one with room for ten. -/
theorem Command.writeTo_within_restless :
    Device.restless.HasRoom Prod.fst ∧
    (∃ bytes x calls, (Command.deleteStorageGroup "é").encode = .ok bytes ∧ bytes.length = 10 ∧
      (Command.deleteStorageGroup "é").writeTo Device.restless calls (7, false) = some x ∧
      x.taken = bytes.take 7) ∧
    ∃ x calls, (Command.deleteStorageGroup "é").writeTo Device.restless calls (10, false) = some x ∧
      x.result = .ok () := by
  have hencode : (Command.deleteStorageGroup "é").encode
      = .ok [0, 0, 0, 2, 0, 0, 0, 2, 0xC3, 0xA9] := by rfl
  have hwithin (room : Nat) := (writeTo_within Device.hasRoom_restless (room, false) _).1 _ hencode
  obtain ⟨x, calls, hx, hshort⟩ := hwithin 7
  obtain ⟨x', calls', hx', hwhole⟩ := hwithin 10
  exact ⟨Device.hasRoom_restless,
    ⟨_, x, calls, hencode, rfl, (hx calls).trans (if_pos (Nat.le_refl calls)), hshort.taken⟩,
    x', calls', (hx' calls').trans (if_pos (Nat.le_refl calls')),
    hwhole.ok_iff.2 (Nat.le_refl 10)⟩

end ControlPlane
