/-
The two headers in front of everything else: the stub header, whose last field
says where the image begins, and the file header, which counts the sections and
sizes the optional header.
-/
import ManagedImage.Cursor
import ManagedImage.Flag

namespace ManagedImage

/-- The header of the stub program at the start of the file. -/
structure StubHeader where
  magic : UInt16
  /-- Where the signature of the image stands. -/
  imageOffset : UInt32
deriving DecidableEq, Repr

namespace StubHeader

/-- The stub header takes 128 bytes. -/
def size : Nat := 128

/-- `MZ`. -/
def expectedMagic : UInt16 := 0x5A4D

/-- Reads the whole header, then checks it: a bad one is passed over too. -/
def read : Reader StubHeader := do
  let start ← Reader.position
  let header ← Reader.take size
  let magic := UInt16.ofNat (header.leNat 0 2)
  if magic ≠ expectedMagic then Reader.malformed (.stubMagic start magic)
  return ⟨magic, UInt32.ofNat (header.leNat 60 4)⟩

end StubHeader

/-- Reads the signature `PE`, NUL, NUL in front of the file header. -/
def readImageSignature : Reader Unit := do
  let start ← Reader.position
  let found ← Reader.u32
  if found ≠ 0x00004550 then Reader.malformed (.imageSignature start found)

/-- The file header. -/
structure FileHeader where
  machine : UInt16
  sectionCount : UInt16
  timestamp : UInt32
  symbolTableOffset : UInt32
  symbolCount : UInt32
  optionalHeaderSize : UInt16
  characteristics : UInt16
deriving DecidableEq, Repr

namespace FileHeader

/-- Reads the twenty bytes of the header. -/
def read : Reader FileHeader := do
  let machine ← Reader.u16
  let sectionCount ← Reader.u16
  let timestamp ← Reader.u32
  let symbolTableOffset ← Reader.u32
  let symbolCount ← Reader.u32
  let optionalHeaderSize ← Reader.u16
  let characteristics ← Reader.u16
  return { machine, sectionCount, timestamp, symbolTableOffset, symbolCount,
           optionalHeaderSize, characteristics }

/-- The named bits of `characteristics`. -/
def flags : List Flag :=
  [⟨"RELOCS_STRIPPED", 0x0001⟩, ⟨"EXECUTABLE_IMAGE", 0x0002⟩, ⟨"LINE_NUMS_STRIPPED", 0x0004⟩,
   ⟨"LOCAL_SYMS_STRIPPED", 0x0008⟩, ⟨"AGGRESSIVE_WS_TRIM", 0x0010⟩,
   ⟨"LARGE_ADDRESS_AWARE", 0x0020⟩, ⟨"BYTES_REVERSED_LO", 0x0080⟩, ⟨"MACHINE_32BIT", 0x0100⟩,
   ⟨"DEBUG_STRIPPED", 0x0200⟩, ⟨"REMOVABLE_RUN_FROM_SWAP", 0x0400⟩,
   ⟨"NET_RUN_FROM_SWAP", 0x0800⟩, ⟨"SYSTEM", 0x1000⟩, ⟨"DLL", 0x2000⟩,
   ⟨"UP_SYSTEM_ONLY", 0x4000⟩, ⟨"BYTES_REVERSED_HI", 0x8000⟩]

/-- Whether the image is a library. -/
def isLibrary (h : FileHeader) : Bool := Flag.isSet 0x2000 h.characteristics.toNat

end FileHeader

end ManagedImage
