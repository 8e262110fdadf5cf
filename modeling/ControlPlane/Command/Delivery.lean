import ControlPlane.Command.Wire

/-!
# ControlPlane.Command.Delivery

Writing a command to a sink that takes bytes piecemeal.  What is left is offered to the sink until
all is taken or the sink gives up (`Device.deliver`), so the sink has always taken an initial part
of the bytes, and all of them exactly if the result is `ok`.
-/

namespace ControlPlane

open Wire

/-- What a sink answers to one call that offers it bytes. -/
inductive SinkAnswer
  /-- It takes up to this many of the bytes offered. -/
  | takes (n : Nat)
  /-- The call was interrupted and is to be repeated. -/
  | interrupted
  /-- The sink is broken. -/
  | fails (reason : String)
  deriving DecidableEq, Repr

/-- A sink: what it answers to an offer of bytes, and the state that this leaves it in. -/
structure Device (σ : Type) where
  write : σ → Bytes → SinkAnswer × σ

/-- The result of writing to a sink, with the bytes that the sink has taken and the state that it is
in then. -/
structure Delivery (σ : Type) where
  result : Except EncodeError Unit
  taken : Bytes
  state : σ

namespace Device

variable {σ : Type}

/-- Offers the bytes until all are taken, in at most so many calls.  There is no result if these do
not do.  A sink that takes none of the bytes will not take any later, so that ends the attempt. -/
def deliver (d : Device σ) (calls : Nat) (s : σ) (b : Bytes) : Option (Delivery σ) :=
  if b = [] then some ⟨.ok (), [], s⟩
  else
    match calls with
    | 0 => none
    | calls + 1 =>
      match d.write s b with
      | (.interrupted, s) => d.deliver calls s b
      | (.fails reason, s) => some ⟨.error (.sink reason), [], s⟩
      | (.takes 0, s) => some ⟨.error (.sink "failed to write whole buffer"), [], s⟩
      | (.takes (n + 1), s) => do
        let rest ← d.deliver calls s (b.drop (n + 1))
        return { rest with taken := b.take (n + 1) ++ rest.taken }

/-- A sink that takes at most `chunk` bytes a call.  Its state is how many bytes it has room for; it
takes nothing more without room, and fails if there is a reason to. -/
def limited (chunk : Nat) (finalFailure : Option String) : Device Nat where
  write
    | 0, _ => ((finalFailure.map .fails).getD (.takes 0), 0)
    | room, b =>
      let n := min chunk (min room b.length)
      (.takes n, room - n)

/-- A sink that interrupts a call if the flag in its state is set, and lowers the flag. -/
def interruptedOnce (d : Device σ) : Device (Bool × σ) where
  write
    | (true, s), _ => (.interrupted, (false, s))
    | (false, s), b =>
      let (answer, s) := d.write s b
      (answer, (false, s))

end Device

/-- Writes a command to a sink, in at most so many calls.  The command is encoded first, so one that
cannot be encoded leaves the sink untouched. -/
def Command.writeTo {σ : Type} (c : Command) (d : Device σ) (calls : Nat) (s : σ) :
    Option (Delivery σ) :=
  match c.encode with
  | .ok bytes => d.deliver calls s bytes
  | .error e => some ⟨.error e, [], s⟩

end ControlPlane
