/-
A managed image: an executable file with its CLI header, its metadata root, its
streams and its tables. Loading reads all of these, in this order, and opens
each heap once to see that it is sound; the heaps are opened again on request.
A heap is found by name, and of several streams of one name the first counts.
-/
import ManagedImage.Heap.UserStrings
import ManagedImage.Metadata.CliHeader
import ManagedImage.Metadata.Root
import ManagedImage.Metadata.Tables
import ManagedImage.Method.Bodies

namespace ManagedImage

/-- A managed image. -/
structure Image where
  file : File
  cliHeader : CliHeader
  root : Root
  /-- The streams of the root, in the same order. -/
  streams : List Stream
  tables : Tables
deriving DecidableEq

namespace Image

/-- The first stream of a name. -/
def findStream? (streams : List Stream) (name : String) : Option Stream :=
  streams.find? (·.name = name)

/-- The bytes of the first stream of a name, if there is one. -/
def streamBytes (data : Bytes) (streams : List Stream) (name : String) :
    Except Error (Option Bytes) :=
  match findStream? streams name with
  | some s => some <$> data.slice s.fileOffset s.size.toNat
  | none => .ok none

/-- Opens a heap, if its stream is there. -/
def openHeap {α : Type} (data : Bytes) (streams : List Stream) (name : String)
    (ofBytes : Bytes → Except Error α) : Except Error (Option α) := do
  match ← streamBytes data streams name with
  | some bytes => some <$> ofBytes bytes
  | none => return none

/-- Opens every heap once. -/
def checkHeaps (data : Bytes) (streams : List Stream) : Except Error Unit := do
  discard (openHeap data streams "#Strings" StringHeap.ofBytes)
  discard (openHeap data streams "#US" UserStringHeap.ofBytes)
  discard (openHeap data streams "#GUID" GuidHeap.ofBytes)
  discard (openHeap data streams "#Blob" BlobHeap.ofBytes)

/-- The CLI header of a file; a native image has none. -/
def readCliHeader (file : File) : Except Error CliHeader := do
  match file.cliDirectory? with
  | none => throw .notSupported
  | some directory => CliHeader.read.run (← file.sliceAt directory.rva CliHeader.size)

/-- The bytes of the metadata. -/
def metadataBytes (file : File) (header : CliHeader) : Except Error Bytes :=
  file.sliceAt header.metadata.rva header.metadata.size.toNat

/-- The bytes of the stream of tables. -/
def tablesBytes (file : File) (streams : List Stream) : Except Error Bytes := do
  let stream ← tablesStream (findStream? streams)
  file.data.slice stream.fileOffset stream.size.toNat

/-- Loads the image in a file. -/
def ofFile (file : File) : Except Error Image := do
  let cliHeader ← readCliHeader file
  let root ← Root.read (← metadataBytes file cliHeader)
  let streams ← (root.place cliHeader.metadata.rva file.fileOffset).toExcept
  let tables ← Tables.read (← tablesBytes file streams)
  checkHeaps file.data streams
  return { file, cliHeader, root, streams, tables }

/-- Loads an image. -/
def ofBytes (data : Bytes) : Except Error Image := do ofFile (← File.ofBytes data)

/-- The bytes of the image. -/
def data (i : Image) : Bytes := i.file.data

/-- The first stream of a name. -/
def stream? (i : Image) (name : String) : Option Stream := findStream? i.streams name

/-- The range of the file that the first stream of a name takes. -/
def streamSpan? (i : Image) (name : String) : Option Span := (i.stream? name).map Stream.span

/-- A heap, if its stream is there and sound. -/
def heap? {α : Type} (i : Image) (name : String) (ofBytes : Bytes → Except Error α) : Option α :=
  match openHeap i.data i.streams name ofBytes with
  | .ok heap => heap
  | .error _ => none

/-- The heap of strings. -/
def strings? (i : Image) : Option StringHeap := i.heap? "#Strings" StringHeap.ofBytes

/-- The heap of user strings. -/
def userStrings? (i : Image) : Option UserStringHeap := i.heap? "#US" UserStringHeap.ofBytes

/-- The heap of GUIDs. -/
def guids? (i : Image) : Option GuidHeap := i.heap? "#GUID" GuidHeap.ofBytes

/-- The heap of blobs. -/
def blobs? (i : Image) : Option BlobHeap := i.heap? "#Blob" BlobHeap.ofBytes

/-- A value that must be there. -/
def require {α : Type} (value : Option α) (defect : Defect) : Except Error α :=
  match value with
  | some a => .ok a
  | none => .error (.malformed defect)

/-- The name of the module. -/
def moduleName (i : Image) : Except Error String := do
  let row ← require (i.tables.modules.row? 1) .noModule
  let strings ← require i.strings? .noStrings
  strings.get row.columns.name.toNat

/-- The version identifier of the module. -/
def moduleVersion (i : Image) : Except Error Guid := do
  let row ← require (i.tables.modules.row? 1) .noModule
  let guids ← require i.guids? .noGuids
  guids.get row.columns.versionId.toNat

/-- What became of each method of the image. -/
def methodBodies (i : Image) : MethodBodies :=
  .locate i.file i.tables.methodDefs.rows.toList

end Image

end ManagedImage
