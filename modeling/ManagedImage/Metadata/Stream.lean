/-
Streams of the metadata. The root lists each stream by its offset from the root,
its size and its name; a stream is placed once the address of the root is known
and its own address is found in the file.
-/
import ManagedImage.Cursor

namespace ManagedImage

/-- What the metadata root says of a stream. -/
structure StreamHeader where
  /-- From the start of the metadata root. -/
  offset : UInt32
  size : UInt32
  name : String
deriving DecidableEq, Repr

namespace StreamHeader

/-- A name takes at most 32 bytes with its zero byte. -/
def nameLimit : Nat := 32

/--
Reads the name and its padding. Without a zero byte in reach the name is too
long, or cut off by the end of the metadata.
-/
def readName : Reader String := do
  let c ← get
  let window := c.data.extract c.pos (min (c.pos + nameLimit) c.data.size)
  let name := Bytes.upToNul window
  if name.size = window.size then
    if window.size < nameLimit then throw (.outOfBounds c.pos nameLimit c.data.size)
    else Reader.malformed (.streamNameUnterminated c.pos)
  match Utf8.decode? name with
  | none => Reader.malformed (.streamNameText c.pos)
  | some text =>
    Reader.advance (name.size + 1)
    Reader.align 4
    return text

/-- Reads an entry of the root's list. -/
def read : Reader StreamHeader := do
  let offset ← Reader.u32
  let size ← Reader.u32
  return ⟨offset, size, ← readName⟩

/-- The zero bytes that fill up `n` bytes to a multiple of four. -/
def padding (n : Nat) : List UInt8 := List.replicate ((4 - n % 4) % 4) 0

/-- The form of an entry in the root's list. -/
def encode (h : StreamHeader) : List UInt8 :=
  let name := Utf8.encode h.name ++ [0]
  Bytes.leBytes 4 h.offset.toNat ++ Bytes.leBytes 4 h.size.toNat ++ name ++ padding name.length

/-- The position behind the stream, from the start of the metadata root. -/
def stop (h : StreamHeader) : Nat := h.offset.toNat + h.size.toNat

end StreamHeader

/-- A stream and where it lies in the file. -/
structure Stream extends StreamHeader where
  fileOffset : Nat
deriving DecidableEq, Repr

namespace Stream

/-- Finds a stream in the file, given the address of the metadata root. -/
def place (root : UInt32) (fileOffset : UInt32 → Except Error Nat) (h : StreamHeader) :
    Except Error Stream := do
  if root.toNat + h.offset.toNat < 0x100000000 then
    return ⟨h, ← fileOffset (root + h.offset)⟩
  else throw (.malformed (.streamRvaOverflow h.name root h.offset))

/-- The range of the file that the stream takes. -/
def span (s : Stream) : Span := ⟨s.fileOffset, s.fileOffset + s.size.toNat⟩

end Stream

end ManagedImage
