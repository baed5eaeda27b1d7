/-
An executable file: its bytes and its headers, which are read in one pass. The
stub header says where the image begins; the signature, the file header, the
optional header and the section table follow each other there.
-/
import ManagedImage.Pe.FileHeader
import ManagedImage.Pe.OptionalHeader
import ManagedImage.Pe.Section

namespace ManagedImage

/-- The headers of an executable file. -/
structure Headers where
  stub : StubHeader
  file : FileHeader
  optional : OptionalHeader
  sections : SectionTable
deriving DecidableEq, Repr

namespace Headers

/-- Reads the headers from the start of a file. -/
def read : Reader Headers := do
  let stub ← StubHeader.read
  Reader.seek stub.imageOffset.toNat
  readImageSignature
  let file ← FileHeader.read
  let optional ← OptionalHeader.read file.optionalHeaderSize.toNat
  let sections ← SectionTable.read file.sectionCount.toNat
  return { stub, file, optional, sections }

end Headers

/-- An executable file. -/
structure File where
  data : Bytes
  headers : Headers
deriving DecidableEq

namespace File

/-- Reads a file; one without bytes is refused as such. -/
def ofBytes (data : Bytes) : Except Error File := do
  if data.isEmpty then throw .empty
  return ⟨data, ← Headers.read.run data⟩

/-- The directory of the CLI header. -/
def cliDirectory? (f : File) : Option DataDirectory := f.headers.optional.cliDirectory?

/-- Where the byte of an address lies; the section table may point past the end. -/
def fileOffset (f : File) (rva : UInt32) : Except Error Nat := do
  let offset ← f.headers.sections.fileOffset rva
  if offset < f.data.size then return offset
  else throw (.outOfBounds offset 1 f.data.size)

/-- The `length` bytes at an address. -/
def sliceAt (f : File) (rva : UInt32) (length : Nat) : Except Error Bytes := do
  f.data.slice (← f.fileOffset rva) length

end File

end ManagedImage
