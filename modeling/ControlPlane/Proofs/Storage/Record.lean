import ControlPlane.Proofs.Wire.Frame
import ControlPlane.Storage.Record

/-!
# ControlPlane.Proofs.Storage.Record

Small records are read back.  Each of them is its parts one after the other, and every part takes
just its own bytes, so the laws are put together like the records (`LawfulFixed`).
-/

namespace ControlPlane.Storage

open Consensus

/-- A number is read back from its eight bytes. -/
theorem takeWord?_putWord (n : UInt64) (rest : Bytes) :
    takeWord? (putWord n ++ rest) = some (n, rest) := by
  have hlen : (putWord n).length = 8 := by simp [putWord]
  have hvalue : Wire.bigEndian (putWord n).reverse = n.toNat := by
    rw [putWord, List.reverse_reverse, Wire.bigEndian_putInt64]
    rfl
  rw [takeWord?, if_neg (by simp [hlen]), ← hlen, List.take_left, List.drop_left, hvalue,
    UInt64.ofNat_toNat]

/-- A record that is read back from the front of bytes. -/
class LawfulFixed (α : Type) [Fixed α] : Prop where
  take?_put (a : α) (rest : Bytes) : Fixed.take? (Fixed.put a ++ rest) = some (a, rest)

instance : LawfulFixed UInt64 where
  take?_put := takeWord?_putWord

instance : LawfulFixed LeaderId where
  take?_put l rest := by
    show (do
      let (term, b) ← takeWord? (putWord l.term ++ putWord l.nodeId ++ rest)
      let (nodeId, b) ← takeWord? b
      return (LeaderId.mk term nodeId, b)) = some (l, rest)
    rw [List.append_assoc, takeWord?_putWord]
    simp only [Option.bind_eq_bind, Option.bind_some, takeWord?_putWord]
    rfl

instance : LawfulFixed LogId where
  take?_put l rest := by
    show (do
      let (leaderId, b) ← Fixed.take? (Fixed.put l.leaderId ++ putWord l.index ++ rest)
      let (index, b) ← takeWord? b
      return (LogId.mk leaderId index, b)) = some (l, rest)
    rw [List.append_assoc, LawfulFixed.take?_put]
    simp only [Option.bind_eq_bind, Option.bind_some, takeWord?_putWord]
    rfl

instance : LawfulFixed Vote where
  take?_put v rest := by
    obtain ⟨leaderId, committed⟩ := v
    have hput : Fixed.put (Vote.mk leaderId committed) ++ rest
        = Fixed.put leaderId ++ ((if committed then 1 else 0) :: rest) := by
      show Fixed.put leaderId ++ [if committed then 1 else 0] ++ rest = _
      rw [List.append_assoc]
      rfl
    rw [hput]
    show (Fixed.take? (α := LeaderId) (Fixed.put leaderId ++ _)).bind _ = _
    rw [LawfulFixed.take?_put, Option.bind_some]
    cases committed <;> rfl

/-- A record is read back as a whole. -/
theorem Fixed.get?_put {α : Type} [Fixed α] [LawfulFixed α] (a : α) :
    Fixed.get? (Fixed.put a) = some a := by
  have htake := LawfulFixed.take?_put a []
  rw [List.append_nil] at htake
  rw [Fixed.get?, htake, Option.map_some]

end ControlPlane.Storage
