import ControlPlane.Text.Utf8
import ControlPlane.Wire.Error

/-!
# ControlPlane.Wire.Frame

The framing that every payload shares: 32- and 64-bit integers in big-endian order, texts behind a
32-bit length, and declared counts that are checked against the bytes that are left.

A reader returns the bytes it has left in every case, also after a failure: a fixed-size field that
lacks bytes takes none, a length or count that is refused has been taken, and a text that is not
UTF-8 has been taken as a whole.
-/

namespace ControlPlane.Wire

/-! ## Integers as bytes -/

/-- The four bytes of a 32-bit integer, most significant first. -/
def putInt32 (v : Int32) : Bytes :=
  let n := v.toUInt32.toNat
  [UInt8.ofNat (n / 16777216), UInt8.ofNat (n / 65536), UInt8.ofNat (n / 256), UInt8.ofNat n]

/-- The eight bytes of a 64-bit integer, most significant first. -/
def putInt64 (v : Int64) : Bytes :=
  let n := v.toUInt64.toNat
  [UInt8.ofNat (n / 72057594037927936), UInt8.ofNat (n / 281474976710656),
    UInt8.ofNat (n / 1099511627776), UInt8.ofNat (n / 4294967296), UInt8.ofNat (n / 16777216),
    UInt8.ofNat (n / 65536), UInt8.ofNat (n / 256), UInt8.ofNat n]

/-- The number that bytes spell, most significant first. -/
def bigEndian (b : Bytes) : Nat := b.foldl (fun n x => n * 256 + x.toNat) 0

/-! ## Writing -/

/-- A length or count in its 32-bit field. -/
def putLength (field : Field) (n : Nat) : Except EncodeError Bytes :=
  if n < 2147483648 then .ok (putInt32 (Int32.ofNat n)) else .error (.tooLarge field n)

/-- A text behind its length. -/
def putText (field : Field) (s : String) : Except EncodeError Bytes := do
  let length ← putLength field (Utf8.encode s).length
  return length ++ Utf8.encode s

/-- The encodings of the members of a list, one after the other. -/
def putMany {α : Type} (put : α → Except EncodeError Bytes) : List α → Except EncodeError Bytes
  | [] => .ok []
  | a :: rest => do
    let head ← put a
    let tail ← putMany put rest
    return head ++ tail

/-! ## Reading -/

/-- A reader takes bytes from the front and returns its result with the bytes left. -/
def Reader (α : Type) : Type := Bytes → Except DecodeError α × Bytes

namespace Reader

/-- Takes nothing. -/
protected def pure {α : Type} (a : α) : Reader α := fun b => (.ok a, b)

/-- Runs the second reader on what the first one leaves; a failure stops. -/
protected def bind {α β : Type} (r : Reader α) (f : α → Reader β) : Reader β := fun b =>
  match r b with
  | (.ok a, rest) => f a rest
  | (.error e, rest) => (.error e, rest)

instance : Monad Reader where
  pure := Reader.pure
  bind := Reader.bind

/-- Fails and takes nothing. -/
def fail {α : Type} (e : DecodeError) : Reader α := fun b => (.error e, b)

/-- How many bytes are left. -/
def remaining : Reader Nat := fun b => (.ok b.length, b)

/-- Takes `n` bytes for a fixed-size field, or none if they are not all there. -/
def fixed (field : Field) (n : Nat) : Reader Bytes := fun b =>
  if b.length < n then (.error (.truncated field n b.length), b) else (.ok (b.take n), b.drop n)

/-- Takes `n` bytes that a length has announced. -/
def take (n : Nat) : Reader Bytes := fun b => (.ok (b.take n), b.drop n)

/-- A 32-bit integer. -/
def int32 (field : Field) : Reader Int32 := do
  let b ← fixed field 4
  return (UInt32.ofNat (bigEndian b)).toInt32

/-- A 64-bit integer. -/
def int64 (field : Field) : Reader Int64 := do
  let b ← fixed field 8
  return (UInt64.ofNat (bigEndian b)).toInt64

/-- A declared count of items that take at least `least` bytes each: refused when it is negative or
when the bytes left cannot hold so many items. -/
def count (field : Field) (least : Nat) : Reader Nat := do
  let declared ← int32 field
  if declared.toInt < 0 then
    fail (.negativeLength field declared)
  else
    let left ← remaining
    if declared.toInt.toNat * least > left then
      fail (.countTooLarge field declared left)
    else
      return declared.toInt.toNat

/-- A text behind its length. -/
def text (field : Field) : Reader String := do
  let length ← count field 1
  let raw ← take length
  match Utf8.decode? raw with
  | some s => return s
  | none => fail (.invalidUtf8 field)

/-- `n` items, one after the other. -/
def many {α : Type} (item : Reader α) : Nat → Reader (List α)
  | 0 => return []
  | n + 1 => do
    let a ← item
    let rest ← many item n
    return a :: rest

end Reader

end ControlPlane.Wire
