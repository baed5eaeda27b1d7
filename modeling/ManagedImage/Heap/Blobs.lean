/-
The heap of blobs: byte sequences, each behind its length as a compressed
number and addressed by the position of that number.
-/
import ManagedImage.Compressed
import ManagedImage.Heap.Built

namespace ManagedImage

/-- A heap of blobs. -/
structure BlobHeap where
  data : Bytes
deriving DecidableEq

namespace BlobHeap

/-- The heap in a stream, which begins with the empty blob. -/
def ofBytes (data : Bytes) : Except Error BlobHeap :=
  if data[0]? = some 0 then .ok ⟨data⟩ else .error (.malformed .blobHeap)

/-- Reads a length and as many bytes. -/
def readBlob : Reader Bytes := do Reader.take (← Compressed.read)

/-- The blob at a position. -/
def get (h : BlobHeap) (index : Nat) : Except Error Bytes :=
  (do Reader.seek index; readBlob : Reader Bytes).run h.data

/-- The form in which a blob is appended to a heap. -/
def encode (blob : List UInt8) : List UInt8 := Compressed.encode blob.length ++ blob

/-- The heap of a list of blobs, behind the empty blob. -/
def build (blobs : List (List UInt8)) : BuiltHeap := .ofItems encode blobs

end BlobHeap

end ManagedImage
