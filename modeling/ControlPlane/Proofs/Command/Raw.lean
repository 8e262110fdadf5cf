import ControlPlane.Proofs.Wire.Frame
import ControlPlane.Command.Wire

/-!
# ControlPlane.Proofs.Command.Raw

Decoding on a machine.  A reader of the wire format is a function, so it cannot do harm; a decoder
that runs takes bytes off a buffer which breaks down if there are too few, multiplies sizes that
have a greatest value, and reserves room before it knows what comes.  Here are the readers as
decoders of that kind, with a record of what they do (`Access`).

Every read has a check in front of it that still holds when the read happens, so no decoder breaks
down, and each comes to the same as its reader (`Follows`).  A count is held against the bytes left
before room is made for its items, so no room is out of proportion to the input; and since every
item takes bytes, the whole work is not either (`Paced`).
-/

namespace ControlPlane.Raw

open Wire

/-! ## decoders -/

/-- What a decoder does that may go wrong. -/
inductive Access
  /-- It takes bytes off a buffer that has so many left. -/
  | read (size left : Nat)
  | multiply (a b : Nat)
  /-- It makes room for the bytes of a text. -/
  | reserveText (capacity : Nat)
  /-- It makes room for the items of a list. -/
  | reserveItems (capacity : Nat)
  deriving DecidableEq, Repr

/-- How a decoder ends. -/
inductive Ending (α : Type)
  | done (a : α)
  | refused (e : DecodeError)
  /-- It has read more bytes than there are. -/
  | brokenDown

/-- The ending of a decoder that does not break down. -/
def Ending.of {α : Type} : Except DecodeError α → Ending α
  | .ok a => .done a
  | .error e => .refused e

/-- What a decoder has come to, the bytes left in the buffer, and what it did, in order. -/
structure Run (α : Type) where
  ending : Ending α
  left : Bytes
  accesses : List Access

/-- A decoder works on a buffer. -/
def Decoder (α : Type) : Type := Bytes → Run α

namespace Decoder

variable {α β : Type}

/-- Does nothing. -/
protected def pure (a : α) : Decoder α := fun b => ⟨.done a, b, []⟩

/-- Runs the second decoder on what the first one leaves, unless that has ended otherwise. -/
protected def bind (d : Decoder α) (f : α → Decoder β) : Decoder β := fun b =>
  match d b with
  | ⟨.done a, left, accesses⟩ => { f a left with accesses := accesses ++ (f a left).accesses }
  | ⟨.refused e, left, accesses⟩ => ⟨.refused e, left, accesses⟩
  | ⟨.brokenDown, left, accesses⟩ => ⟨.brokenDown, left, accesses⟩

instance : Monad Decoder where
  pure := Decoder.pure
  bind := Decoder.bind

/-- Refuses the buffer. -/
def refuse (e : DecodeError) : Decoder α := fun b => ⟨.refused e, b, []⟩

/-- How many bytes are left. -/
def remaining : Decoder Nat := fun b => ⟨.done b.length, b, []⟩

/-- Takes bytes off the buffer, which must have them. -/
def read (n : Nat) : Decoder Bytes := fun b =>
  if b.length < n then ⟨.brokenDown, b, [.read n b.length]⟩
  else ⟨.done (b.take n), b.drop n, [.read n b.length]⟩

/-- The greatest size. -/
def maxSize : Nat := 18446744073709551615

/-- Multiplies two sizes; what is too great becomes the greatest size. -/
def multiply (m n : Nat) : Decoder Nat := fun b => ⟨.done (min (m * n) maxSize), b, [.multiply m n]⟩

/-- Makes room for so many bytes. -/
def reserveText (n : Nat) : Decoder Unit := fun b => ⟨.done (), b, [.reserveText n]⟩

/-- Makes room for so many items. -/
def reserveItems (n : Nat) : Decoder Unit := fun b => ⟨.done (), b, [.reserveItems n]⟩

/-! ## the framing -/

/-- Refuses the buffer if it has fewer bytes than a field needs. -/
def ensure (field : Field) (needed : Nat) : Decoder Unit := do
  let left ← remaining
  if left < needed then refuse (.truncated field needed left) else return

/-- The bytes of a field of a fixed size. -/
def fixed (field : Field) (n : Nat) : Decoder Bytes := do
  ensure field n
  read n

/-- A 32-bit integer. -/
def int32 (field : Field) : Decoder Int32 := do
  let b ← fixed field 4
  return (UInt32.ofNat (bigEndian b)).toInt32

/-- A 64-bit integer. -/
def int64 (field : Field) : Decoder Int64 := do
  let b ← fixed field 8
  return (UInt64.ofNat (bigEndian b)).toInt64

/-- A declared count of items that take at least `least` bytes each. -/
def count (field : Field) (least : Nat) : Decoder Nat := do
  let declared ← int32 field
  if declared.toInt < 0 then
    refuse (.negativeLength field declared)
  else
    let left ← remaining
    let size ← multiply declared.toInt.toNat least
    if size > left then refuse (.countTooLarge field declared left)
    else return declared.toInt.toNat

/-- A text behind its length.  Its bytes are taken before they are looked at. -/
def text (field : Field) : Decoder String := do
  let length ← count field 1
  reserveText length
  let raw ← read length
  match Utf8.decode? raw with
  | some s => return s
  | none => refuse (.invalidUtf8 field)

/-- `n` items, one after the other. -/
def many (item : Decoder α) : Nat → Decoder (List α)
  | 0 => return []
  | n + 1 => do
    let a ← item
    let rest ← many item n
    return a :: rest

end Decoder

open Decoder

/-! ## the wire format -/

/-- A group id. -/
def groupId : Decoder GroupId := do
  let code ← int32 .groupType
  match GroupType.ofCode? code with
  | none => refuse (.unknownGroupType code)
  | some groupType =>
    let id ← int32 .groupId
    return ⟨groupType, id⟩

/-- An endpoint. -/
def endpoint : Decoder Endpoint := do
  let ip ← text .endpointIp
  let port ← int32 .endpointPort
  return ⟨ip, port⟩

/-- A location. -/
def location : Decoder Location := do
  let dataNodeId ← int32 .dataNodeId
  let internalEndpoint ← endpoint
  return ⟨dataNodeId, internalEndpoint⟩

/-- A replica set. -/
def replicaSet : Decoder ReplicaSet := do
  let regionId ← groupId
  let n ← count .locationCount Location.minLength
  reserveItems n
  let locations ← many location n
  return ⟨regionId, locations⟩

/-- The settings of a storage group. -/
def schema : Decoder StorageGroupSchema := do
  let name ← text .storageGroupName
  let ttlMs ← int64 .ttl
  let schemaReplicationFactor ← int32 .schemaReplicationFactor
  let dataReplicationFactor ← int32 .dataReplicationFactor
  let timePartitionIntervalMs ← int64 .timePartitionInterval
  return { name, ttlMs, schemaReplicationFactor, dataReplicationFactor, timePartitionIntervalMs }

/-- `n` more entries of a map.  No room is made for them in advance. -/
def entries : Nat → RegionGroupMap → Decoder RegionGroupMap
  | 0, m => return m
  | n + 1, m => do
    let name ← text .storageGroupName
    if m.last?.any fun last => compare name last.1 != .gt then
      refuse (.nonCanonicalOrder name)
    else
      let count ← count .replicaSetCount ReplicaSet.minLength
      reserveItems count
      let replicaSets ← many replicaSet count
      entries n (m.insert name replicaSets)

/-- The region groups of a command. -/
def regionGroups : Decoder RegionGroupMap := do
  let n ← count .storageGroupCount RegionGroupMap.minEntryLength
  entries n SortedMap.empty

/-- The payload of a kind. -/
def payload : CommandKind → Decoder Command
  | .registerDataNode => do return .registerDataNode (← location)
  | .setStorageGroup => do return .setStorageGroup (← schema)
  | .deleteStorageGroup => do return .deleteStorageGroup (← text .storageGroupName)
  | .createRegionGroups => do return .createRegionGroups (← regionGroups)

/-- One command off the front of a buffer. -/
def command : Decoder Command := do
  let tag ← int32 .kindTag
  match CommandKind.ofTag tag with
  | .ok kind => payload kind
  | .error e => refuse e

/-- One command, with nothing left behind it. -/
def wholeCommand : Decoder Command := do
  let c ← command
  let left ← remaining
  if left = 0 then return c else refuse (.trailingBytes left)

/-! ## following a reader -/

/-- An access does no harm with so many bytes of input: the bytes that it takes are there, sizes
stay below the greatest one, and there is no more room made than the input has bytes, or a twelfth
of that for items. -/
def Access.Safe (n : Nat) : Access → Prop
  | .read size left => size ≤ left
  | .multiply a b => a * b ≤ maxSize
  | .reserveText capacity => capacity ≤ n
  | .reserveItems capacity => capacity ≤ n / 12 ∧ capacity < 2147483648

theorem Access.Safe.mono {m n : Nat} {a : Access} (h : a.Safe m) (hle : m ≤ n) : a.Safe n := by
  cases a with
  | read size left => exact h
  | multiply a b => exact h
  | reserveText capacity => exact Nat.le_trans h hle
  | reserveItems capacity => exact ⟨Nat.le_trans h.1 (Nat.div_le_div_right hle), h.2⟩

/-- A run on so many bytes comes to the same as a reader, and did no harm. -/
structure Run.Matches {α : Type} (run : Run α) (answer : Except DecodeError α × Bytes) (n : Nat) :
    Prop where
  ending : run.ending = .of answer.1
  left : run.left = answer.2
  shorter : answer.2.length ≤ n
  safe : ∀ a ∈ run.accesses, a.Safe n

namespace Decoder

variable {α β : Type}

/-- On these bytes a decoder comes to the same as a reader, and does no harm. -/
def FollowsAt (d : Decoder α) (r : Reader α) (b : Bytes) : Prop := (d b).Matches (r b) b.length

/-- A decoder that follows a reader wherever it starts. -/
def Follows (d : Decoder α) (r : Reader α) : Prop := ∀ b, d.FollowsAt r b

theorem follows_pure (a : α) : (pure a : Decoder α).Follows (pure a) := fun _ =>
  ⟨rfl, rfl, Nat.le_refl _, List.forall_mem_nil _⟩

theorem follows_refuse (e : DecodeError) : (refuse e : Decoder α).Follows (Reader.fail e) :=
  fun _ => ⟨rfl, rfl, Nat.le_refl _, List.forall_mem_nil _⟩

theorem follows_remaining : remaining.Follows Reader.remaining := fun _ =>
  ⟨rfl, rfl, Nat.le_refl _, List.forall_mem_nil _⟩

theorem bind_of_done {d : Decoder α} {f : α → Decoder β} {b left : Bytes} {a : α}
    {accesses : List Access} (h : d b = ⟨.done a, left, accesses⟩) :
    (d >>= f) b = { f a left with accesses := accesses ++ (f a left).accesses } := by
  show Decoder.bind d f b = _
  rw [Decoder.bind, h]

theorem bind_of_refused {d : Decoder α} {f : α → Decoder β} {b left : Bytes} {e : DecodeError}
    {accesses : List Access} (h : d b = ⟨.refused e, left, accesses⟩) :
    (d >>= f) b = ⟨.refused e, left, accesses⟩ := by
  show Decoder.bind d f b = _
  rw [Decoder.bind, h]

theorem FollowsAt.run_eq {d : Decoder α} {r : Reader α} {b rest : Bytes}
    {answer : Except DecodeError α} (h : d.FollowsAt r b) (hr : r b = (answer, rest)) :
    d b = ⟨.of answer, rest, (d b).accesses⟩ := by
  obtain ⟨hending, hleft, -⟩ := h
  rw [hr] at hending hleft
  cases hrun : d b with
  | mk ending left accesses =>
      rw [hrun] at hending hleft
      cases hending
      cases hleft
      rfl

/-- Decoders in a row follow readers in a row. -/
theorem FollowsAt.bind {d : Decoder α} {r : Reader α} {f : α → Decoder β} {g : α → Reader β}
    {b : Bytes} (hd : d.FollowsAt r b)
    (hf : ∀ a rest, r b = (.ok a, rest) → (f a).FollowsAt (g a) rest) :
    (d >>= f).FollowsAt (r >>= g) b := by
  have hreader : (r >>= g) b = Reader.bind r g b := rfl
  have hshorter := hd.shorter
  cases hr : r b with
  | mk answer rest =>
  have hrun := hd.run_eq hr
  rw [Reader.bind, hr] at hreader
  rw [hr] at hshorter
  rw [FollowsAt, hreader]
  cases answer with
  | error e =>
      rw [bind_of_refused hrun]
      exact ⟨rfl, rfl, hshorter, hd.safe⟩
  | ok a =>
      obtain ⟨hending, hleft, hshorter', hsafe⟩ := hf a rest hr
      rw [bind_of_done hrun]
      refine ⟨hending, hleft, Nat.le_trans hshorter' hshorter, fun access haccess => ?_⟩
      rcases List.mem_append.1 haccess with h | h
      · exact hd.safe access h
      · exact (hsafe access h).mono hshorter

theorem Follows.bind {d : Decoder α} {r : Reader α} {f : α → Decoder β} {g : α → Reader β}
    (hd : d.Follows r) (hf : ∀ a, (f a).Follows (g a)) : (d >>= f).Follows (r >>= g) := fun b =>
  (hd b).bind fun a rest _ => hf a rest

/-- What a decoder does besides, which leaves the buffer alone, has no part in the answer. -/
theorem FollowsAt.bind_besides {d : Decoder α} {f : α → Decoder β} {r : Reader β} {b : Bytes}
    {a : α} {access : Access} (hd : d b = ⟨.done a, b, [access]⟩) (hsafe : access.Safe b.length)
    (hf : (f a).FollowsAt r b) : (d >>= f).FollowsAt r b := by
  obtain ⟨hending, hleft, hshorter, hafter⟩ := hf
  rw [FollowsAt, bind_of_done hd]
  exact ⟨hending, hleft, hshorter, List.forall_mem_cons.2 ⟨hsafe, hafter⟩⟩

/-! ## the framing follows its readers -/

/-- The check in front of a read holds when the read happens. -/
theorem fixed_eq (field : Field) (n : Nat) (b : Bytes) : fixed field n b
    = if b.length < n then ⟨.refused (.truncated field n b.length), b, []⟩
      else ⟨.done (b.take n), b.drop n, [.read n b.length]⟩ := by
  have hensure : ensure field n b = if b.length < n
      then ⟨.refused (.truncated field n b.length), b, []⟩ else ⟨.done (), b, []⟩ := by
    show (if b.length < n then refuse _ else pure ()) b = _
    split <;> rfl
  by_cases h : b.length < n
  · rw [if_pos h] at hensure ⊢
    rw [fixed, bind_of_refused hensure]
  · rw [if_neg h] at hensure ⊢
    rw [fixed, bind_of_done hensure, read, if_neg h, List.nil_append]

theorem follows_fixed (field : Field) (n : Nat) :
    (fixed field n).Follows (Reader.fixed field n) := by
  intro b
  rw [FollowsAt, Reader.fixed, fixed_eq]
  split
  · exact ⟨rfl, rfl, Nat.le_refl _, List.forall_mem_nil _⟩
  · next h =>
      refine ⟨rfl, rfl, ?_, List.forall_mem_singleton.2 (Nat.not_lt.1 h)⟩
      rw [List.length_drop]
      exact Nat.sub_le _ _

theorem follows_int32 (field : Field) : (int32 field).Follows (Reader.int32 field) :=
  (follows_fixed field 4).bind fun _ => follows_pure _

theorem follows_int64 (field : Field) : (int64 field).Follows (Reader.int64 field) :=
  (follows_fixed field 8).bind fun _ => follows_pure _

/-- The size of so many items is never so great that the product would not be exact. -/
theorem follows_count (field : Field) {least : Nat} (h : least ≤ 12) :
    (count field least).Follows (Reader.count field least) := by
  refine (follows_int32 field).bind fun declared b => ?_
  by_cases hneg : declared.toInt < 0
  · rw [if_pos hneg, if_pos hneg]
    exact follows_refuse _ b
  · have hlt := declared.toInt_lt
    have hexact : declared.toInt.toNat * least ≤ maxSize :=
      Nat.le_trans (Nat.mul_le_mul (show declared.toInt.toNat ≤ 2147483648 by omega) h) (by decide)
    rw [if_neg hneg, if_neg hneg]
    refine (follows_remaining b).bind fun left rest _ => ?_
    refine FollowsAt.bind_besides (d := multiply _ least) rfl hexact ?_
    rw [Nat.min_eq_left hexact]
    by_cases hfit : declared.toInt.toNat * least > left
    · rw [if_pos hfit, if_pos hfit]
      exact follows_refuse _ rest
    · rw [if_neg hfit, if_neg hfit]
      exact follows_pure _ rest

/-- Bytes that are there are taken. -/
theorem followsAt_read {n : Nat} {b : Bytes} (h : n ≤ b.length) :
    (read n).FollowsAt (Reader.take n) b := by
  rw [FollowsAt, read, if_neg (Nat.not_lt.2 h)]
  refine ⟨rfl, rfl, ?_, List.forall_mem_singleton.2 h⟩
  show (b.drop n).length ≤ b.length
  rw [List.length_drop]
  exact Nat.sub_le _ _

/-- Room is made for no more bytes than are left, and these are there when they are taken. -/
theorem follows_text (field : Field) : (text field).Follows (Reader.text field) := by
  refine fun b => (follows_count field (by decide) b).bind fun n rest hcount => ?_
  obtain ⟨-, hfit, -⟩ := Reader.count_eq_ok_iff.1 hcount
  rw [Nat.mul_one] at hfit
  refine FollowsAt.bind_besides (d := reserveText n) rfl hfit ?_
  refine (followsAt_read hfit).bind fun raw rest' _ => ?_
  cases Utf8.decode? raw with
  | none => exact follows_refuse _ rest'
  | some s => exact follows_pure s rest'

theorem follows_many {item : Decoder α} {reader : Reader α} (h : item.Follows reader) (n : Nat) :
    (many item n).Follows (Reader.many reader n) := by
  induction n with
  | zero => exact follows_pure []
  | succ n ih => exact h.bind fun a => ih.bind fun rest => follows_pure (a :: rest)

/-- Room is made for no more items than the bytes left can hold. -/
theorem follows_items_bind (field : Field) {item : Decoder α} {reader : Reader α}
    {f : List α → Decoder β} {g : List α → Reader β} (h : item.Follows reader)
    (hf : ∀ l, (f l).Follows (g l)) :
    (do
      let n ← count field 12
      reserveItems n
      f (← many item n)).Follows (do
      let n ← Reader.count field 12
      g (← Reader.many reader n)) := by
  refine fun b => (follows_count field (by decide) b).bind fun n rest hcount => ?_
  obtain ⟨hn, hfit, -⟩ := Reader.count_eq_ok_iff.1 hcount
  exact FollowsAt.bind_besides (d := reserveItems n) rfl
    ⟨(Nat.le_div_iff_mul_le (by decide)).2 hfit, hn⟩ ((follows_many h n).bind hf rest)

end Decoder

/-! ## the decoders follow the readers -/

theorem follows_groupId : groupId.Follows GroupId.reader := by
  refine (follows_int32 .groupType).bind fun code => ?_
  cases GroupType.ofCode? code with
  | none => exact follows_refuse _
  | some groupType => exact (follows_int32 .groupId).bind fun id => follows_pure _

theorem follows_endpoint : endpoint.Follows Endpoint.reader :=
  (follows_text .endpointIp).bind fun _ =>
    (follows_int32 .endpointPort).bind fun _ => follows_pure _

theorem follows_location : location.Follows Location.reader :=
  (follows_int32 .dataNodeId).bind fun _ => follows_endpoint.bind fun _ => follows_pure _

theorem follows_replicaSet : replicaSet.Follows ReplicaSet.reader :=
  follows_groupId.bind fun _ =>
    follows_items_bind .locationCount follows_location fun _ => follows_pure _

theorem follows_schema : schema.Follows StorageGroupSchema.reader :=
  (follows_text .storageGroupName).bind fun _ => (follows_int64 .ttl).bind fun _ =>
    (follows_int32 .schemaReplicationFactor).bind fun _ =>
      (follows_int32 .dataReplicationFactor).bind fun _ =>
        (follows_int64 .timePartitionInterval).bind fun _ => follows_pure _

theorem follows_entries (n : Nat) (m : RegionGroupMap) :
    (entries n m).Follows (RegionGroupMap.entriesReader n m) := by
  induction n generalizing m with
  | zero => exact follows_pure m
  | succ n ih =>
      refine (follows_text .storageGroupName).bind fun name => ?_
      by_cases hlast : (m.last?.any fun last => compare name last.1 != .gt) = true
      · rw [if_pos hlast, if_pos hlast]
        exact follows_refuse _
      · rw [if_neg hlast, if_neg hlast]
        exact follows_items_bind .replicaSetCount follows_replicaSet fun sets =>
          ih (m.insert name sets)

theorem follows_regionGroups : regionGroups.Follows RegionGroupMap.reader :=
  (follows_count .storageGroupCount (by decide)).bind fun n => follows_entries n _

theorem follows_payload (k : CommandKind) : (payload k).Follows (Command.payloadReader k) := by
  cases k with
  | registerDataNode => exact follows_location.bind fun _ => follows_pure _
  | setStorageGroup => exact follows_schema.bind fun _ => follows_pure _
  | deleteStorageGroup => exact (follows_text .storageGroupName).bind fun _ => follows_pure _
  | createRegionGroups => exact follows_regionGroups.bind fun _ => follows_pure _

theorem follows_command : command.Follows Command.reader := by
  refine (follows_int32 .kindTag).bind fun tag => ?_
  cases CommandKind.ofTag tag with
  | error e => exact follows_refuse e
  | ok kind => exact follows_payload kind

/-- The reader of a whole buffer. -/
def wholeReader : Reader Command := do
  let c ← Command.reader
  let left ← Reader.remaining
  if left = 0 then return c else Reader.fail (.trailingBytes left)

theorem wholeReader_eq_decode (b : Bytes) : (wholeReader b).1 = Command.decode b := by
  have hreader : wholeReader b = Reader.bind Command.reader _ b := rfl
  rw [hreader, Reader.bind, Command.decode]
  cases Command.reader b with
  | mk answer rest =>
      cases answer with
      | error e => rfl
      | ok c => cases rest <;> rfl

theorem follows_wholeCommand : wholeCommand.Follows wholeReader := by
  refine follows_command.bind fun c => follows_remaining.bind fun left => ?_
  by_cases h : left = 0
  · rw [if_pos h, if_pos h]
    exact follows_pure c
  · rw [if_neg h, if_neg h]
    exact follows_refuse _

/-! ## how much there is to do -/

/-- The bytes that a run on `n` bytes has taken pay for its accesses, one each, and if it is done
for `s` more. -/
structure Run.Paced {α : Type} (run : Run α) (n s : Nat) : Prop where
  all : run.accesses.length + run.left.length ≤ n
  done : ∀ a, run.ending = .done a → run.accesses.length + run.left.length + s ≤ n

theorem Run.paced_of_le {α : Type} {ending : Ending α} {left : Bytes} {accesses : List Access}
    {n s : Nat} (h : accesses.length + left.length + s ≤ n) :
    (Run.mk ending left accesses).Paced n s := ⟨Nat.le_trans (Nat.le_add_right _ _) h, fun _ _ => h⟩

namespace Decoder

variable {α β : Type} {c s : Nat}

/-- With `c` accesses paid in advance a decoder pays for all that it does, and when it is done for
`s` more. -/
def Paced (c : Nat) (d : Decoder α) (s : Nat) : Prop := ∀ b, (d b).Paced (b.length + c) s

theorem paced_pure (a : α) : Paced c (pure a) c := fun b =>
  show (Run.mk (.done a) b []).Paced _ c from Run.paced_of_le (by simp)

theorem paced_refuse (e : DecodeError) : Paced c (refuse e : Decoder α) s := fun b =>
  have h : (Run.mk (.refused e : Ending α) b []).Paced (b.length + c) c :=
    Run.paced_of_le (by simp)
  ⟨h.all, nofun⟩

theorem paced_remaining : Paced c remaining c := fun b =>
  show (Run.mk (.done b.length) b []).Paced _ c from Run.paced_of_le (by simp)

theorem Paced.mono {d : Decoder α} {c' s' : Nat} (h : Paced c d s) (hc : c ≤ c') (hs : s' ≤ s) :
    Paced c' d s' := fun b => by
  obtain ⟨hall, hdone⟩ := h b
  refine ⟨by omega, fun a ha => ?_⟩
  have := hdone a ha
  omega

/-- What a decoder has not used up can be used by the next one. -/
theorem Paced.bind {d : Decoder α} {f : α → Decoder β} {t : Nat} (hd : Paced c d s)
    (hf : ∀ a, Paced s (f a) t) : Paced c (d >>= f) t := by
  intro b
  obtain ⟨hall, hdone⟩ := hd b
  have hrun : (d >>= f) b = Decoder.bind d f b := rfl
  rw [hrun, Decoder.bind]
  cases h : d b with
  | mk ending left accesses =>
  rw [h] at hall hdone
  cases ending with
  | refused e => exact ⟨hall, nofun⟩
  | brokenDown => exact ⟨hall, nofun⟩
  | done a =>
      have hspare := hdone a rfl
      obtain ⟨hall', hdone'⟩ := hf a left
      simp only at hall hspare
      constructor
      · simp only [List.length_append]
        omega
      · intro a' ha'
        have hspare' := hdone' a' ha'
        simp only [List.length_append]
        omega

/-- What a decoder does besides has to be paid for. -/
theorem paced_besides {d : Decoder α} {f : Bytes → α} {g : Bytes → Access}
    (h : ∀ b, d b = ⟨.done (f b), b, [g b]⟩) : Paced (c + 1) d c := fun b => by
  rw [h]
  exact Run.paced_of_le (by simp; omega)

theorem paced_read (n : Nat) : Paced (c + 1) (read n) c := fun b => by
  rw [read]
  split
  · exact Run.paced_of_le (by simp; omega)
  · exact Run.paced_of_le (by simp; omega)

/-- A field of a fixed size pays for itself, and its other bytes for what follows. -/
theorem paced_fixed (field : Field) (n : Nat) : Paced c (fixed field (n + 1)) (c + n) := fun b => by
  rw [fixed_eq]
  split
  · exact paced_refuse (α := Bytes) _ b
  · exact Run.paced_of_le (by simp; omega)

theorem paced_int32 (field : Field) : Paced c (int32 field) (c + 3) :=
  (paced_fixed field 3).bind fun _ => paced_pure _

theorem paced_int64 (field : Field) : Paced c (int64 field) (c + 7) :=
  (paced_fixed field 7).bind fun _ => paced_pure _

theorem paced_count (field : Field) (least : Nat) : Paced c (count field least) (c + 2) := by
  refine (paced_int32 field).bind fun declared => ?_
  split
  · exact paced_refuse _
  · refine paced_remaining.bind fun left => ?_
    refine (paced_besides fun _ => rfl : Paced (c + 2 + 1) (multiply _ least) _).bind fun size => ?_
    split
    · exact paced_refuse _
    · exact paced_pure _

/-- The length of a text pays for the room and for taking its bytes. -/
theorem paced_text (field : Field) : Paced c (text field) c := by
  refine (paced_count field 1).bind fun n => ?_
  refine (paced_besides fun _ => rfl : Paced (c + 1 + 1) (reserveText n) _).bind fun _ => ?_
  refine (paced_read n).bind fun raw => ?_
  cases Utf8.decode? raw with
  | none => exact paced_refuse _
  | some s => exact paced_pure s

theorem paced_many {item : Decoder α} (h : Paced c item c) (n : Nat) : Paced c (many item n) c := by
  induction n with
  | zero => exact paced_pure []
  | succ n ih => exact h.bind fun a => ih.bind fun rest => paced_pure (a :: rest)

/-- The count of a list pays for the room. -/
theorem paced_items_bind (field : Field) {item : Decoder α} {f : List α → Decoder β}
    (h : ∀ c, Paced c item c) (hf : ∀ l, Paced c (f l) c) :
    Paced c (do
      let n ← count field 12
      reserveItems n
      f (← many item n)) c := by
  refine (paced_count field 12).bind fun n => ?_
  refine (paced_besides fun _ => rfl : Paced (c + 1 + 1) (reserveItems n) _).bind fun _ => ?_
  exact (paced_many (h _) n).bind fun l => (hf l).mono (Nat.le_succ c) (Nat.le_refl c)

end Decoder

theorem paced_groupId (c : Nat) : Paced c groupId c := by
  refine (paced_int32 .groupType).bind fun code => ?_
  cases GroupType.ofCode? code with
  | none => exact paced_refuse _
  | some groupType =>
      exact (paced_int32 .groupId).bind fun id => (paced_pure _).mono (Nat.le_refl _) (by omega)

theorem paced_endpoint (c : Nat) : Paced c endpoint c :=
  (paced_text .endpointIp).bind fun _ =>
    (paced_int32 .endpointPort).bind fun _ => (paced_pure _).mono (Nat.le_refl _) (by omega)

theorem paced_location (c : Nat) : Paced c location c :=
  (paced_int32 .dataNodeId).bind fun _ => (paced_endpoint _).bind fun _ =>
    (paced_pure _).mono (Nat.le_refl _) (by omega)

theorem paced_replicaSet (c : Nat) : Paced c replicaSet c :=
  (paced_groupId c).bind fun _ =>
    paced_items_bind .locationCount paced_location fun _ => paced_pure _

theorem paced_schema (c : Nat) : Paced c schema c :=
  (paced_text .storageGroupName).bind fun _ => (paced_int64 .ttl).bind fun _ =>
    (paced_int32 .schemaReplicationFactor).bind fun _ =>
      (paced_int32 .dataReplicationFactor).bind fun _ =>
        (paced_int64 .timePartitionInterval).bind fun _ =>
          (paced_pure _).mono (Nat.le_refl _) (by omega)

theorem paced_entries (c n : Nat) (m : RegionGroupMap) : Paced c (entries n m) c := by
  induction n generalizing m with
  | zero => exact paced_pure m
  | succ n ih =>
      refine (paced_text .storageGroupName).bind fun name => ?_
      split
      · exact paced_refuse _
      · exact paced_items_bind .replicaSetCount paced_replicaSet fun sets => ih (m.insert name sets)

theorem paced_regionGroups (c : Nat) : Paced c regionGroups c :=
  (paced_count .storageGroupCount _).bind fun n =>
    (paced_entries c n _).mono (by omega) (Nat.le_refl c)

theorem paced_payload (c : Nat) (k : CommandKind) : Paced c (payload k) c := by
  cases k with
  | registerDataNode => exact (paced_location c).bind fun _ => paced_pure _
  | setStorageGroup => exact (paced_schema c).bind fun _ => paced_pure _
  | deleteStorageGroup => exact (paced_text .storageGroupName).bind fun _ => paced_pure _
  | createRegionGroups => exact (paced_regionGroups c).bind fun _ => paced_pure _

theorem paced_command (c : Nat) : Paced c command c := by
  refine (paced_int32 .kindTag).bind fun tag => ?_
  cases CommandKind.ofTag tag with
  | error e => exact paced_refuse e
  | ok kind => exact (paced_payload c kind).mono (by omega) (Nat.le_refl c)

theorem paced_wholeCommand (c : Nat) : Paced c wholeCommand c := by
  refine (paced_command c).bind fun _ => paced_remaining.bind fun left => ?_
  split
  · exact paced_pure _
  · exact paced_refuse _

/-! ## no harm -/

/-- A run on a buffer does no harm, and ends as it should.  Whatever it ends with, every read finds
the bytes that it takes; every product of sizes is exact; the room made for a text is no more than
the buffer has bytes, and for items a twelfth of that; and there are no more accesses than bytes. -/
structure Run.Harmless {α : Type} (run : Run α) (b : Bytes) (answer : Except DecodeError α) :
    Prop where
  ending : run.ending = .of answer
  reads : ∀ size left, .read size left ∈ run.accesses → size ≤ left
  products : ∀ m n, .multiply m n ∈ run.accesses → m * n ≤ maxSize
  texts : ∀ capacity, .reserveText capacity ∈ run.accesses → capacity ≤ b.length
  items : ∀ capacity, .reserveItems capacity ∈ run.accesses →
    capacity ≤ b.length / 12 ∧ capacity < 2147483648
  accesses : run.accesses.length ≤ b.length

theorem Decoder.Follows.harmless {α : Type} {d : Decoder α} {r : Reader α} (h : d.Follows r)
    (hpaced : Paced 0 d 0) (b : Bytes) : (d b).Harmless b (r b).1 where
  ending := (h b).ending
  reads _ _ haccess := (h b).safe _ haccess
  products _ _ haccess := (h b).safe _ haccess
  texts _ haccess := (h b).safe _ haccess
  items _ haccess := (h b).safe _ haccess
  accesses := Nat.le_trans (Nat.le_add_right _ _) (hpaced b).all

/-- **Hostile bytes do no harm**, whatever they are: to decode them as one command, as a command at
the front of a stream, or as a part of one, comes to what the readers say, and never breaks down.
No read goes beyond the buffer and no product of sizes is too great.  Also if the bytes are refused
later on, the room that was made in advance is in proportion to them, and so is the work. -/
theorem decoding_harmless (b : Bytes) :
    (wholeCommand b).Harmless b (Command.decode b) ∧
    (command b).Harmless b (Command.reader b).1 ∧
    (groupId b).Harmless b (GroupId.reader b).1 ∧
    (endpoint b).Harmless b (Endpoint.reader b).1 ∧
    (location b).Harmless b (Location.reader b).1 ∧
    (replicaSet b).Harmless b (ReplicaSet.reader b).1 := by
  refine ⟨?_, follows_command.harmless (paced_command 0) b,
    follows_groupId.harmless (paced_groupId 0) b, follows_endpoint.harmless (paced_endpoint 0) b,
    follows_location.harmless (paced_location 0) b,
    follows_replicaSet.harmless (paced_replicaSet 0) b⟩
  rw [← wholeReader_eq_decode]
  exact follows_wholeCommand.harmless (paced_wholeCommand 0) b

/-- A count that the bytes cannot hold is refused before room is made for anything. -/
example : (command [0, 0, 0, 3, 0x7F, 0xFF, 0xFF, 0xFF, 0, 0, 0, 0]).accesses
    = [.read 4 12, .read 4 8, .multiply 2147483647 8] := by decide

end ControlPlane.Raw
