/-
Method bodies. A body is a header and the code behind it. The tiny header is one
byte with the size of the code in its upper six bits; the fat header states its
own size in words of four bytes, at least three, and the size of the code in a
field of its own. Code must end within the file. `tinyHeader` and `fatHeader`
are the two headers as bytes.
-/
import ManagedImage.Cursor
import ManagedImage.Flag

namespace ManagedImage

/-- The header of a method body. -/
structure MethodBody where
  /-- The position of the header in the file. -/
  offset : Nat
  codeSize : Nat
  headerSize : Nat
  maxStack : Nat
  /-- The token of the signature of the locals, zero without locals. -/
  localsToken : UInt32
  /-- The known bits of the flags, those of the format included. -/
  flags : Nat
  isFat : Bool
deriving DecidableEq, Repr

namespace MethodBody

/-- The size of the fields of a fat header. -/
def fatSize : Nat := 12

/-- The named bits of the flags. The bits of the tiny format are among those of the fat one. -/
def flagNames : List Flag :=
  [⟨"TINY_FORMAT", 0x02⟩, ⟨"FAT_FORMAT", 0x03⟩, ⟨"MORE_SECTS", 0x08⟩, ⟨"INIT_LOCALS", 0x10⟩]

/-- The bits that `flagNames` names. -/
def knownFlags : Nat := 0x1B

/-- The range of the code in the file. -/
def codeSpan (b : MethodBody) : Span :=
  ⟨b.offset + b.headerSize, b.offset + b.headerSize + b.codeSize⟩

/-- The size of header and code. -/
def size (b : MethodBody) : Nat := b.headerSize + b.codeSize

/-- Whether the locals are set to zero first. -/
def initializesLocals (b : MethodBody) : Bool := Flag.isSet 0x10 b.flags

/-- Whether other sections follow the code. -/
def hasMoreSections (b : MethodBody) : Bool := b.isFat && Flag.isSet 0x08 b.flags

/-- Reads the fields of a fat header whose first byte is `first`. -/
def readFat (first : UInt8) : Reader MethodBody := do
  let offset ← Reader.position
  let flagsAndSize ← Reader.u16
  let headerSize := flagsAndSize.toNat / 0x1000 * 4
  if headerSize < fatSize then throw (.methodHeader offset first)
  let maxStack ← Reader.u16
  let codeSize ← Reader.u32
  let localsToken ← Reader.u32
  return { offset, codeSize := codeSize.toNat, headerSize, maxStack := maxStack.toNat,
           localsToken, flags := flagsAndSize.toNat % 0x1000 &&& knownFlags, isFat := true }

/-- Reads a header. Its format is in the low two bits of the first byte. -/
def readHeader : Reader MethodBody := do
  let offset ← Reader.position
  let first ← Reader.peek Reader.u8
  if first % 4 = 2 then
    return { offset, codeSize := first.toNat / 4, headerSize := 1, maxStack := 8,
             localsToken := 0, flags := 0x02, isFat := false }
  else if first % 4 = 3 then readFat first
  else throw (.methodHeader offset first)

/-- Reads the body at a position of a file. -/
def read (data : Bytes) (offset : Nat) : Except Error MethodBody := do
  let body ← readHeader.runAt data offset
  if data.size < body.codeSpan.stop then
    throw (.outOfBounds body.codeSpan.start body.codeSize data.size)
  return body

/-- The tiny header of code of fewer than 64 bytes. -/
def tinyHeader (codeSize : Nat) : List UInt8 := [UInt8.ofNat (codeSize * 4 + 2)]

/--
The fat header of `words` words of four bytes. The low two bits of `flags` are
set; `extra` are the bytes behind the fields.
-/
def fatHeader (words flags maxStack codeSize localsToken : Nat) (extra : List UInt8) :
    List UInt8 :=
  Bytes.leBytes 2 (words * 0x1000 + flags) ++ Bytes.leBytes 2 maxStack ++
    Bytes.leBytes 4 codeSize ++ Bytes.leBytes 4 localsToken ++ extra

end MethodBody

end ManagedImage
