import ControlPlane.Cli.Ending

/-!
# ControlPlane.Cli.Arguments

The arguments of a program.  A program is a tree of verbs: each has flags of its own, and either
verbs below it, of which one has to follow, or none.  Reading arguments gives one `Level` for each
verb on the way down, with what was given there.

A flag is settled late: its value is looked at when the next flag comes, or when the arguments of
its level end, and a verb's level ends after the levels below.  This decides which of two faults
counts, and whether a question for help comes first.
-/

namespace ControlPlane.Cli

/-- What a flag takes. -/
inductive Arity
  /-- Nothing; the flag is there or not. -/
  | nothing
  | one
  /-- One value each time that it is given. -/
  | many
  deriving DecidableEq, Repr

/-- A flag: `--name`, with a short form of one letter or without. -/
structure Flag where
  name : String
  short : Option Char := none
  arity : Arity := .one
  valid : String → Bool := fun _ => true
  required : Bool := false

/-- A verb, with its flags and the verbs below. -/
structure Verb where
  name : String
  flags : List Flag := []
  verbs : List Verb := []

/-- A verb on the way down, and what was given to it: flags by name, in order. -/
structure Level where
  verb : String
  given : List (String × String)
  deriving DecidableEq, Repr

/-- The value of a flag at a level. -/
def Level.value? (l : Level) (flag : String) : Option String := l.given.lookup flag

/-- The values of a flag at a level. -/
def Level.values (l : Level) (flag : String) : List String :=
  (l.given.filter (·.1 == flag)).map (·.2)

/-- Whether a flag is at a level. -/
def Level.has (l : Level) (flag : String) : Bool := (l.value? flag).isSome

/-- Why arguments are not carried out. -/
inductive Stop
  | help
  | usage
  deriving DecidableEq, Repr

/-- The ending of a program that was stopped. -/
def Stop.ending : Stop → Ending
  | .help => .help
  | .usage => .usage

/-- What has been read of a level. -/
structure Progress where
  given : List (String × String) := []
  /-- The last flag, with its value if that has come. -/
  pending : Option (Flag × Option String) := none
  /-- Whether flags and verbs are over. -/
  closed : Bool := false

namespace Progress

/-- Takes note of a flag.  Its value has to be valid, and only some flags may be repeated. -/
def give (p : Progress) (f : Flag) (value : String) : Except Stop Progress :=
  if !f.valid value ∨ (f.arity ≠ .many ∧ p.given.any (·.1 == f.name)) then .error .usage
  else .ok { p with given := p.given ++ [(f.name, value)] }

/-- Settles the pending flag, which must have got its value. -/
def settle (p : Progress) : Except Stop Progress :=
  match p.pending with
  | none => .ok p
  | some (_, none) => .error .usage
  | some (f, some value) => { p with pending := none }.give f value

/-- Whether the next argument is a value. -/
def awaits (p : Progress) : Bool :=
  match p.pending with
  | some (_, none) => true
  | _ => false

/-- Takes note of a flag whose value was given with it. -/
def attach (p : Progress) (f : Flag) (value : String) : Except Stop Progress := do
  (← p.settle).give f value

/-- Takes note of a flag whose value is to follow. -/
def await (p : Progress) (f : Flag) : Except Stop Progress := do
  return { (← p.settle) with pending := some (f, none) }

/-- Gives help, unless the pending flag is in the way. -/
def help (p : Progress) : Except Stop Progress := do
  let _ ← p.settle
  throw .help

/-- Reads a flag with a long name, and the value behind an equals sign. -/
def readLong (p : Progress) (flags : List Flag) (name : String) (value : Option String) :
    Except Stop Progress :=
  if name = "help" then if value.isSome then .error .usage else p.help
  else
    match flags.find? (·.name == name), value with
    | none, _ => .error .usage
    | some f, some value => if f.arity = .nothing then .error .usage else p.attach f value
    | some f, none => if f.arity = .nothing then p.attach f "" else p.await f

/-- Reads flags with short names.  What is behind one that takes a value is its value, after an
equals sign or not. -/
def readShort (p : Progress) (flags : List Flag) : List Char → Except Stop Progress
  | [] => .ok p
  | c :: rest =>
    if c = 'h' then p.help
    else
      match flags.find? (·.short == some c) with
      | none => .error .usage
      | some f =>
        if f.arity = .nothing then do (← p.attach f "").readShort flags rest
        else
          match rest with
          | [] => p.await f
          | '=' :: value => p.attach f (String.ofList value)
          | value => p.attach f (String.ofList value)

/-- Reads an argument that is no verb. -/
def read (p : Progress) (flags : List Flag) (arg : String) : Except Stop Progress :=
  match p.closed, arg.toList with
  | true, _ => .error .usage
  | false, ['-', '-'] => .ok { p with closed := true }
  | false, '-' :: '-' :: cs =>
    let name := cs.takeWhile (· ≠ '=')
    let value := if cs.contains '=' then some (String.ofList (cs.drop (name.length + 1))) else none
    p.readLong flags (String.ofList name) value
  | false, '-' :: c :: cs => p.readShort flags (c :: cs)
  | false, _ =>
    match p.pending with
    | some (f, none) => .ok { p with pending := some (f, some arg) }
    | _ => .error .usage

end Progress

namespace Verb

/-- The verb that asks for help.  It is below every verb that has verbs below. -/
def helpName : String := "help"

/-- The verb of a name below a verb. -/
def find? (v : Verb) (name : String) : Option Verb := v.verbs.find? (·.name == name)

/-- What a question for help gets, with the names of the verbs that it is about. -/
def helpOn (v : Verb) : List String → Stop
  | [] => .help
  | name :: rest =>
    match v.find? name with
    | some below => below.helpOn rest
    | none => if name = helpName ∧ !v.verbs.isEmpty ∧ rest.isEmpty then .help else .usage

/-- Ends a level: all that it needs must be there. -/
def close (v : Verb) (p : Progress) : Except Stop Level := do
  let p ← p.settle
  if v.flags.any fun f => f.required && !p.given.any (·.1 == f.name) then throw .usage
  return ⟨v.name, p.given⟩

/-- Reads the arguments behind a verb. -/
def readFrom (v : Verb) (p : Progress) : List String → Except Stop (List Level)
  | [] => if v.verbs.isEmpty then do return [← v.close p] else .error .usage
  | arg :: rest =>
    if p.awaits ∨ p.closed then do v.readFrom (← p.read v.flags arg) rest
    else
      match v.find? arg with
      | some below => do
        let levels ← below.readFrom {} rest
        return (← v.close p) :: levels
      | none =>
        if arg = helpName ∧ !v.verbs.isEmpty then .error (v.helpOn rest)
        else do v.readFrom (← p.read v.flags arg) rest

/-- Reads the arguments of a program. -/
def read (v : Verb) (args : List String) : Except Stop (List Level) := v.readFrom {} args

end Verb

end ControlPlane.Cli
