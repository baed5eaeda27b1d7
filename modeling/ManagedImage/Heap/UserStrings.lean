/-
The heap of user strings, which string loads refer to. An entry is its length as
a compressed number, the UTF-16 payload and a flag byte; the length counts the
payload and the flag, so it is odd. An entry of length zero has neither.

A walk goes through the heap entry by entry from its start, up to the end or the
first entry that cannot be decoded. Zero bytes behind the last string read as
empty entries.

Main statements: the payload begins behind the length (`payload_stop`), and the
declared length counts from there to the end of the entry (`stop_eq`).
-/
import ManagedImage.Compressed
import ManagedImage.Heap.Built
import ManagedImage.Progress
import ManagedImage.Text.Utf16

namespace ManagedImage

/-- An entry of the heap of user strings. -/
structure UserString where
  /-- The position of the length in the heap. -/
  offset : Nat
  /-- The size of the length in bytes. -/
  prefixSize : Nat
  /-- The declared length. -/
  length : Nat
  payload : Bytes
  /-- The byte behind the payload; an empty entry has none. -/
  flag : Option UInt8
deriving DecidableEq, Repr

namespace UserString

/-- The range of the payload in the heap. -/
def payloadSpan (s : UserString) : Span :=
  ⟨s.offset + s.prefixSize, s.offset + s.prefixSize + s.payload.size⟩

/-- The count of bytes of the whole entry. -/
def size (s : UserString) : Nat := s.prefixSize + s.length

/-- The position behind the entry. -/
def stop (s : UserString) : Nat := s.offset + s.size

/-- The code units of the payload. -/
def units (s : UserString) : List UInt16 := Utf16.unitsOfBytes s.payload.toList

/-- The text of the payload, with replacements for surrogates on their own. -/
def text (s : UserString) : String := String.ofList (Utf16.decode s.units)

/-- The flag byte that belongs to a payload: whether it has a character that needs care. -/
def flagOf (units : List UInt16) : UInt8 :=
  if units.any needsCare then 1 else 0
where
  /-- Anything but Latin-1, most control characters, the apostrophe and the hyphen. -/
  needsCare (unit : UInt16) : Bool :=
    unit > 0xFF || (0x01 ≤ unit && unit ≤ 0x08) || (0x0E ≤ unit && unit ≤ 0x1F) ||
      unit = 0x27 || unit = 0x2D || unit = 0x7F

/-- The form of a string in a heap. -/
def encode (units : List UInt16) : List UInt8 :=
  Compressed.encode (2 * units.length + 1) ++ Utf16.bytesOfUnits units ++ [flagOf units]

/-- Reads the entry at the position of the cursor. -/
def read : Reader UserString := do
  let offset ← Reader.position
  let length ← Compressed.read
  let prefixSize := (← Reader.position) - offset
  if length = 0 then
    return { offset, prefixSize, length, payload := #[], flag := none }
  if length % 2 = 0 then Reader.malformed (.evenUserString offset length)
  let payload ← Reader.take (length - 1)
  let flag ← Reader.u8
  return { offset, prefixSize, length, payload, flag := some flag }

theorem payload_stop (s : UserString) : s.payloadSpan.stop = s.payloadSpan.start + s.payload.size :=
  rfl

theorem stop_eq (s : UserString) : s.stop = s.payloadSpan.start + s.length := by
  simp only [stop, size, payloadSpan]; omega

end UserString

/-- A heap of user strings. -/
structure UserStringHeap where
  data : Bytes
deriving DecidableEq

namespace UserStringHeap

/-- The heap in a stream, which begins with the empty entry. -/
def ofBytes (data : Bytes) : Except Error UserStringHeap :=
  if data[0]? = some 0 then .ok ⟨data⟩ else .error (.malformed .userStringsHeap)

/-- The entry at a position. -/
def get (h : UserStringHeap) (offset : Nat) : Except Error UserString :=
  (do Reader.seek offset; UserString.read : Reader UserString).run h.data

/--
The entries from a position on, behind those already `seen`. An entry takes at
least one byte, so the size of the heap is fuel enough.
-/
def walkFrom (h : UserStringHeap) : Nat → Nat → Array UserString → Progress Error UserString
  | 0, _, seen => ⟨seen.toList, none⟩
  | fuel + 1, offset, seen =>
    if offset < h.data.size then
      match h.get offset with
      | .ok entry => h.walkFrom fuel entry.stop (seen.push entry)
      | .error e => ⟨seen.toList, some e⟩
    else ⟨seen.toList, none⟩

/-- Every entry of the heap in order, up to the first that cannot be decoded. -/
def walk (h : UserStringHeap) : Progress Error UserString := h.walkFrom h.data.size 0 #[]

/-- The heap of a list of strings, behind the empty entry and before `padding` zero bytes. -/
def build (strings : List (List UInt16)) (padding : Nat) : BuiltHeap :=
  (BuiltHeap.ofItems UserString.encode strings).pad padding

end UserStringHeap

end ManagedImage
