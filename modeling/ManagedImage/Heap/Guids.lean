/-
The heap of GUIDs: records of sixteen bytes, counted from one. Number zero is
the GUID of zeros, whatever the heap holds.
-/
import ManagedImage.Cursor

namespace ManagedImage

/-- A globally unique identifier, as its sixteen bytes. -/
structure Guid where
  bytes : Bytes
deriving DecidableEq, Repr

namespace Guid

/-- The identifier of zeros. -/
def zero : Guid := ⟨Array.replicate 16 0⟩

/-- The text in five groups. The first three are stored little-endian. -/
def text (g : Guid) : String :=
  let group := fun start stop => Hex.ofBytes (g.bytes.extract start stop)
  let number := fun start n => Hex.padded (2 * n) (g.bytes.leNat start n)
  "-".intercalate [number 0 4, number 4 2, number 6 2, group 8 10, group 10 16]

end Guid

/-- A heap of GUIDs. -/
structure GuidHeap where
  data : Bytes
deriving DecidableEq

namespace GuidHeap

/-- The heap in a stream, which holds whole records only. -/
def ofBytes (data : Bytes) : Except Error GuidHeap :=
  if data.size % 16 = 0 then .ok ⟨data⟩ else .error (.malformed (.guidHeap data.size))

/-- The count of records. -/
def size (h : GuidHeap) : Nat := h.data.size / 16

/-- The record of a number. -/
def get (h : GuidHeap) : Nat → Except Error Guid
  | 0 => .ok .zero
  | n + 1 => return ⟨← h.data.slice (n * 16) 16⟩

end GuidHeap

end ManagedImage
