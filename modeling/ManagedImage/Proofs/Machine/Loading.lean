/-
Loading an image on the machine: the stages one behind the other, as they are
described in the modules on the headers, the root and the tables, and the heaps
that are opened once. Nothing here computes but the heap of GUIDs, whose size is
divided.
-/
import ManagedImage.Proofs.Machine.Root
import ManagedImage.Proofs.Machine.Tables

namespace ManagedImage

namespace Machine

/-! ## Heaps -/

/-- Opens a heap, if its stream is there. -/
def openHeap {α : Type} (data : Bytes) (streams : List Stream) (name : String) (make : Bytes → Run α) :
    Run (Option α) :=
  match Image.findStream? streams name with
  | some s => do
    let bytes ← slice data s.fileOffset s.size.toNat
    return some (← make bytes)
  | none => return none

theorem openHeap_eq {α : Type} {data : Bytes} {streams : List Stream} {name : String}
    {make : Bytes → Run α} {f : Bytes → Except Error α} (short : data.size < 2 ^ 63)
    (same : ∀ bytes, make bytes = Run.of (f bytes)) :
    openHeap data streams name make = Run.of (Image.openHeap data streams name f) := by
  rw [openHeap, Image.openHeap, Image.streamBytes]
  cases Image.findStream? streams name with
  | none => rfl
  | some s =>
    dsimp only
    rw [slice_eq short]
    cases data.slice s.fileOffset s.size.toNat with
    | error e => rfl
    | ok bytes => exact Run.bind_of (same bytes) fun _ _ => rfl

/-- The heap of GUIDs, of records of sixteen bytes. -/
def guidHeap (bytes : Bytes) : Run GuidHeap := do
  let rest ← rem bytes.size 16
  if rest = 0 then return ⟨bytes⟩ else refuse (.malformed (.guidHeap bytes.size))

theorem guidHeap_eq (bytes : Bytes) : guidHeap bytes = Run.of (GuidHeap.ofBytes bytes) := by
  rw [guidHeap, rem_eq (by decide), ok_bind, GuidHeap.ofBytes]
  split <;> rfl

/-- Opens every heap once. The others of them are sound if their first byte is. -/
def checkHeaps (data : Bytes) (streams : List Stream) : Run Unit := do
  let _ ← openHeap data streams "#Strings" fun bytes => Run.of (StringHeap.ofBytes bytes)
  let _ ← openHeap data streams "#US" fun bytes => Run.of (UserStringHeap.ofBytes bytes)
  let _ ← openHeap data streams "#GUID" guidHeap
  let _ ← openHeap data streams "#Blob" fun bytes => Run.of (BlobHeap.ofBytes bytes)

/-- Going on behind a result that is not looked at. -/
theorem Run.discard_of {α β : Type} {p : Run α} {q : Run β} {x : Except Error α} {y : Except Error β}
    (first : p = Run.of x) (second : q = Run.of y) :
    (p >>= fun _ => q) = Run.of (discard x >>= fun _ => y) := by
  subst first second
  cases x <;> rfl

theorem checkHeaps_eq {data : Bytes} (short : data.size < 2 ^ 63) (streams : List Stream) :
    checkHeaps data streams = Run.of (Image.checkHeaps data streams) := by
  rw [checkHeaps, openHeap_eq short fun _ => rfl, openHeap_eq short fun _ => rfl,
    openHeap_eq short guidHeap_eq, openHeap_eq short fun _ => rfl]
  refine Run.discard_of rfl (Run.discard_of rfl (Run.discard_of rfl ?_))
  cases Image.openHeap data streams "#Blob" BlobHeap.ofBytes <;> rfl

/-! ## The stages -/

/-- Loads an image. -/
def load (data : Bytes) : Run Image := do
  let file ← openFile data
  let cliHeader ← cliHeader file
  let metadata ← sliceAt file cliHeader.metadata.rva cliHeader.metadata.size.toNat
  let root ← root metadata
  let streams ← placeStreams file cliHeader.metadata.rva root
  let stream ← Run.of (tablesStream (Image.findStream? streams))
  let bytes ← slice file.data stream.fileOffset stream.size.toNat
  let tables ← tables bytes
  checkHeaps file.data streams
  return { file, cliHeader, root, streams, tables }

theorem load_eq {data : Bytes} (short : data.size < 2 ^ 63) :
    load data = Run.of (Image.ofBytes data) := by
  refine Run.bind_of (openFile_eq short) fun file opened => ?_
  have same : file.data = data := (File.ofBytes_eq_ok.1 opened).2.1
  rw [← same] at short
  refine Run.bind_of (cliHeader_eq opened short) fun header _ => ?_
  refine Run.bind_of (sliceAt_eq short _ _) fun metadata found => ?_
  refine Run.bind_of (root_eq (addressable_of_sliceAt short found)) fun root _ => ?_
  refine Run.bind_of (placeStreams_eq _ _ _) fun streams _ => ?_
  rw [Image.tablesBytes]
  cases tablesStream (Image.findStream? streams) with
  | error e => rfl
  | ok stream =>
    refine Run.bind_of (slice_eq short _ _) fun bytes found => ?_
    refine Run.bind_of (tables_eq (addressable_of_slice short found)) fun tables _ => ?_
    exact Run.bind_of (checkHeaps_eq short streams) fun _ _ => rfl

end Machine

end ManagedImage
