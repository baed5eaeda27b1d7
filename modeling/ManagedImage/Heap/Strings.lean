/-
The heap of strings: UTF-8 texts, each ended by a zero byte and addressed by the
position of its first byte. An address inside a text reads its rest.
-/
import ManagedImage.Cursor

namespace ManagedImage

/-- A heap of strings. -/
structure StringHeap where
  data : Bytes
deriving DecidableEq

namespace StringHeap

/-- The heap in a stream, which begins with the empty string. -/
def ofBytes (data : Bytes) : Except Error StringHeap :=
  if data[0]? = some 0 then .ok ⟨data⟩ else .error (.malformed .stringsHeap)

/-- The text at a position: it needs a zero byte behind it. -/
def get (h : StringHeap) (index : Nat) : Except Error String :=
  if index < h.data.size then
    let bytes := Bytes.upToNul (h.data.extract index h.data.size)
    match Utf8.decode? bytes with
    | some text =>
      if index + bytes.size < h.data.size then .ok text
      else .error (.malformed (.stringText index))
    | none => .error (.malformed (.stringText index))
  else .error (.outOfBounds index 1 h.data.size)

end StringHeap

end ManagedImage
