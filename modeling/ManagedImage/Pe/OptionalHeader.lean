/-
The optional header and the data directories at its end. It comes in two
layouts, the narrow one with 32-bit addresses and the wide one with 64-bit
addresses; the wide one has no base of data. Its declared size bounds every
read, and at most sixteen directories are kept; those not stored are empty.
-/
import ManagedImage.Cursor

namespace ManagedImage

/-- Where a structure lies once the image is loaded. -/
structure DataDirectory where
  rva : UInt32
  size : UInt32
deriving DecidableEq, Repr

namespace DataDirectory

/-- The directory of a structure that the image does not have. -/
def none : DataDirectory := ⟨0, 0⟩

/-- Whether the directory points nowhere. -/
def isEmpty (d : DataDirectory) : Bool := d.rva = 0 || d.size = 0

/-- Reads a directory. -/
def read : Reader DataDirectory := return ⟨← Reader.u32, ← Reader.u32⟩

/-- The names of the directories, in order. -/
def names : List String :=
  ["ExportTable", "ImportTable", "ResourceTable", "ExceptionTable", "CertificateTable",
   "BaseRelocationTable", "Debug", "Architecture", "GlobalPtr", "TlsTable", "LoadConfigTable",
   "BoundImport", "ImportAddressTable", "DelayImportDescriptor", "ClrRuntimeHeader", "Reserved"]

/-- The most directories that are kept. -/
def limit : Nat := 16

/-- The place of the directory of the CLI header. -/
def cliHeaderIndex : Nat := 14

end DataDirectory

/-- The optional header. -/
structure OptionalHeader where
  magic : UInt16
  linkerMajor : UInt8
  linkerMinor : UInt8
  codeSize : UInt32
  initializedDataSize : UInt32
  uninitializedDataSize : UInt32
  entryPoint : UInt32
  codeBase : UInt32
  /-- Of the narrow layout only. -/
  dataBase : Option UInt32
  imageBase : UInt64
  sectionAlignment : UInt32
  fileAlignment : UInt32
  subsystemMajor : UInt16
  subsystemMinor : UInt16
  imageSize : UInt32
  headersSize : UInt32
  checksum : UInt32
  subsystem : UInt16
  libraryCharacteristics : UInt16
  /-- The count of directories that the header claims. -/
  directoryCount : UInt32
  /-- Sixteen directories. -/
  directories : List DataDirectory
deriving DecidableEq, Repr

namespace OptionalHeader

def narrowMagic : UInt16 := 0x10B

def wideMagic : UInt16 := 0x20B

/-- Whether the header is of the wide layout. -/
def isWide (h : OptionalHeader) : Bool := h.magic = wideMagic

/-- Reads the directories that are stored, and fills up to sixteen with empty ones. -/
def readDirectories (size : Nat) (claimed : UInt32) : Reader (List DataDirectory) := do
  let stored := min claimed.toNat DataDirectory.limit
  if (← get).remaining < stored * 8 then
    Reader.malformed (.directoriesCutOff size claimed)
  let directories ← Reader.times DataDirectory.read stored
  return directories ++ List.replicate (DataDirectory.limit - stored) DataDirectory.none

/-- Reads the fields of a header of `size` bytes that began at `start` of the file. -/
def readFields (start size : Nat) : Reader OptionalHeader := do
  let magic ← Reader.u16
  if magic ≠ narrowMagic ∧ magic ≠ wideMagic then
    Reader.malformed (.optionalMagic start magic)
  let wide : Bool := magic = wideMagic
  let linkerMajor ← Reader.u8
  let linkerMinor ← Reader.u8
  let codeSize ← Reader.u32
  let initializedDataSize ← Reader.u32
  let uninitializedDataSize ← Reader.u32
  let entryPoint ← Reader.u32
  let codeBase ← Reader.u32
  let dataBase ← if wide then pure none else some <$> Reader.u32
  let imageBase ← if wide then Reader.u64 else (·.toUInt64) <$> Reader.u32
  let sectionAlignment ← Reader.u32
  let fileAlignment ← Reader.u32
  -- versions of the operating system and of the image
  Reader.advance 8
  let subsystemMajor ← Reader.u16
  let subsystemMinor ← Reader.u16
  Reader.advance 4
  let imageSize ← Reader.u32
  let headersSize ← Reader.u32
  let checksum ← Reader.u32
  let subsystem ← Reader.u16
  let libraryCharacteristics ← Reader.u16
  -- reserved and committed sizes of stack and heap, then the loader flags
  Reader.advance (if wide then 32 else 16)
  Reader.advance 4
  let directoryCount ← Reader.u32
  let directories ← readDirectories size directoryCount
  return { magic, linkerMajor, linkerMinor, codeSize, initializedDataSize, uninitializedDataSize,
           entryPoint, codeBase, dataBase, imageBase, sectionAlignment, fileAlignment,
           subsystemMajor, subsystemMinor, imageSize, headersSize, checksum, subsystem,
           libraryCharacteristics, directoryCount, directories }

/-- Reads a header of `size` bytes: the bytes first, then the fields within them. -/
def read (size : Nat) : Reader OptionalHeader := do
  let start ← Reader.position
  let header ← Reader.take size
  Reader.ofExcept ((readFields start size).run header)

/-- The directory at a place, if it points anywhere. -/
def directory? (h : OptionalHeader) (place : Nat) : Option DataDirectory :=
  h.directories[place]?.filter (!·.isEmpty)

/-- The directory of the CLI header; a native image has none. -/
def cliDirectory? (h : OptionalHeader) : Option DataDirectory :=
  h.directory? DataDirectory.cliHeaderIndex

end OptionalHeader

end ManagedImage
