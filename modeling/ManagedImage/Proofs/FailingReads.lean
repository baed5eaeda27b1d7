/-
Which vector an error about an access is about. What is read for an image is more
than the image: the optional header, the CLI header, the metadata, the stream of
tables, the code of a method and the heap of user strings are cut out first and
then read as vectors of their own. For each of these readings there is a case that
has what came before it and the failure itself (`Headers.FailsIn`,
`Image.FailsIn`, `Image.ScanFailsIn`). A failed access is one of these cases, and
in each case the error is true of the vector (`Image.outOfBounds_truthful`).
-/
import ManagedImage.Proofs.Overruns

namespace ManagedImage

open Reader

namespace Headers

/-- What stands in front of the section table; the optional header as bytes. -/
structure Front where
  stub : StubHeader
  file : FileHeader
  /-- Where the optional header begins. -/
  start : Nat
  optional : Bytes

/-- Reads up to the end of the optional header. -/
def readFront : Reader Front := do
  let stub ← StubHeader.read
  Reader.seek stub.imageOffset.toNat
  readImageSignature
  let file ← FileHeader.read
  let start ← Reader.position
  let optional ← Reader.take file.optionalHeaderSize.toNat
  return { stub, file, start, optional }

instance : Truthful readFront := by unfold readFront; infer_instance

theorem stop_of_readFront {data : Bytes} {front : Front} {c : Cursor}
    (h : readFront ⟨data, 0⟩ = .ok front c) :
    c = ⟨data, front.start + front.file.optionalHeaderSize.toNat⟩ := by
  have same : c.data = data := Truthful.stays h
  obtain ⟨stub, _, -, h⟩ := bind_eq_ok.1 h
  obtain ⟨_, _, -, h⟩ := bind_eq_ok.1 h
  obtain ⟨_, _, -, h⟩ := bind_eq_ok.1 h
  obtain ⟨file, c₁, -, h⟩ := bind_eq_ok.1 h
  rw [bind_of_ok (position_ok c₁)] at h
  obtain ⟨optional, c₂, taken, h⟩ := bind_eq_ok.1 h
  obtain ⟨rfl, rfl⟩ := pure_eq_ok.1 h
  obtain ⟨-, -, rfl⟩ := take_keeps taken
  cases same
  rfl

theorem read_eq_front : Headers.read = (do
    let front ← readFront
    let optional ← Reader.ofExcept
      ((OptionalHeader.readFields front.start front.file.optionalHeaderSize.toNat).run front.optional)
    let sections ← SectionTable.read front.file.sectionCount.toNat
    return ⟨front.stub, front.file, optional, sections⟩) := by
  simp only [Headers.read, OptionalHeader.read, readFront, bind_assoc, pure_bind]

/-- A reading of the headers that fails, and the vector that it reads. -/
inductive FailsIn (data : Bytes) (e : Error) : Bytes → Prop where
  | front (failed : readFront.run data = .error e) : FailsIn data e data
  | optional {front : Front} (read : readFront.run data = .ok front)
      (failed : (OptionalHeader.readFields front.start front.file.optionalHeaderSize.toNat).run
        front.optional = .error e) : FailsIn data e front.optional
  | sections {front : Front} (read : readFront.run data = .ok front)
      (failed : (SectionTable.read front.file.sectionCount.toNat).runAt data
        (front.start + front.file.optionalHeaderSize.toNat) = .error e) : FailsIn data e data

theorem FailsIn.trueOf {data vector : Bytes} {e : Error} (h : FailsIn data e vector) :
    e.TrueOf vector := by
  cases h with
  | front failed => exact Truthful.runAt failed
  | optional _ failed => exact Truthful.runAt failed
  | sections _ failed => exact Truthful.runAt failed

theorem failsIn_of_read {data : Bytes} {e : Error} (h : Headers.read.run data = .error e) :
    ∃ vector, FailsIn data e vector := by
  obtain ⟨c', h⟩ := runAt_eq_error.1 h
  rw [read_eq_front] at h
  rcases bind_eq_error.1 h with failed | ⟨front, c₁, read, h⟩
  · exact ⟨data, .front (runAt_eq_error.2 ⟨c', failed⟩)⟩
  have front_ok : readFront.run data = .ok front := run_eq_ok.2 ⟨c₁, read⟩
  have stop := stop_of_readFront read
  rcases bind_eq_error.1 h with failed | ⟨optional, c₂, fields, h⟩
  · exact ⟨front.optional, .optional front_ok (ofExcept_eq_error.1 failed).1⟩
  rcases bind_eq_error.1 h with failed | ⟨_, _, -, ⟨⟩⟩
  obtain ⟨-, rfl⟩ := ofExcept_eq_ok.1 fields
  rw [stop] at failed
  exact ⟨data, .sections front_ok (runAt_eq_error.2 ⟨c', failed⟩)⟩

end Headers

namespace Image

variable {data : Bytes} {e : Error}

/-! ## Loading -/

/-- A file and its CLI header. -/
def loadCliHeader (data : Bytes) : Except Error (File × CliHeader) := do
  let file ← File.ofBytes data
  return (file, ← readCliHeader file)

/-- A file, its CLI header and its metadata root. -/
def loadRoot (data : Bytes) : Except Error (File × CliHeader × Root) := do
  let (file, cliHeader) ← loadCliHeader data
  return (file, cliHeader, ← Root.read (← metadataBytes file cliHeader))

/-- A file and the streams of its metadata. -/
def loadStreams (data : Bytes) : Except Error (File × List Stream) := do
  let (file, cliHeader, root) ← loadRoot data
  return (file, ← (root.place cliHeader.metadata.rva file.fileOffset).toExcept)

/-- A reading of loading that fails, and the vector that it reads. -/
inductive FailsIn (data : Bytes) (e : Error) : Bytes → Prop where
  | headers {vector : Bytes} (failed : Headers.FailsIn data e vector) : FailsIn data e vector
  | cliHeaderCut {file : File} {directory : DataDirectory} (opened : File.ofBytes data = .ok file)
      (found : file.cliDirectory? = some directory)
      (failed : file.sliceAt directory.rva CliHeader.size = .error e) : FailsIn data e data
  | cliHeader {file : File} {directory : DataDirectory} {header : Bytes}
      (opened : File.ofBytes data = .ok file) (found : file.cliDirectory? = some directory)
      (cut : file.sliceAt directory.rva CliHeader.size = .ok header)
      (failed : CliHeader.read.run header = .error e) : FailsIn data e header
  | metadataCut {file : File} {cliHeader : CliHeader}
      (loaded : loadCliHeader data = .ok (file, cliHeader))
      (failed : metadataBytes file cliHeader = .error e) : FailsIn data e data
  | root {file : File} {cliHeader : CliHeader} {metadata : Bytes}
      (loaded : loadCliHeader data = .ok (file, cliHeader))
      (cut : metadataBytes file cliHeader = .ok metadata)
      (failed : Root.read metadata = .error e) : FailsIn data e metadata
  | place {file : File} {cliHeader : CliHeader} {root : Root}
      (loaded : loadRoot data = .ok (file, cliHeader, root))
      (failed : (root.place cliHeader.metadata.rva file.fileOffset).toExcept = .error e) :
      FailsIn data e data
  | tablesCut {file : File} {streams : List Stream} (loaded : loadStreams data = .ok (file, streams))
      (failed : tablesBytes file streams = .error e) : FailsIn data e data
  | tables {file : File} {streams : List Stream} {stream : Bytes}
      (loaded : loadStreams data = .ok (file, streams))
      (cut : tablesBytes file streams = .ok stream)
      (failed : Tables.read stream = .error e) : FailsIn data e stream
  | heaps {file : File} {streams : List Stream} (loaded : loadStreams data = .ok (file, streams))
      (failed : checkHeaps file.data streams = .error e) : FailsIn data e data

theorem data_of_loadCliHeader {file : File} {cliHeader : CliHeader}
    (loaded : loadCliHeader data = .ok (file, cliHeader)) : file.data = data := by
  obtain ⟨file', opened, loaded⟩ := Except.bind_eq_ok.1 loaded
  obtain ⟨cliHeader', -, same⟩ := Except.bind_eq_ok.1 loaded
  cases same
  exact (File.ofBytes_eq_ok.1 opened).2.1

theorem data_of_loadRoot {file : File} {cliHeader : CliHeader} {root : Root}
    (loaded : loadRoot data = .ok (file, cliHeader, root)) : file.data = data := by
  obtain ⟨⟨file', cliHeader'⟩, front, loaded⟩ := Except.bind_eq_ok.1 loaded
  obtain ⟨metadata, -, loaded⟩ := Except.bind_eq_ok.1 loaded
  obtain ⟨root', -, same⟩ := Except.bind_eq_ok.1 loaded
  cases same
  exact data_of_loadCliHeader front

theorem data_of_loadStreams {file : File} {streams : List Stream}
    (loaded : loadStreams data = .ok (file, streams)) : file.data = data := by
  obtain ⟨⟨file', cliHeader, root⟩, front, loaded⟩ := Except.bind_eq_ok.1 loaded
  obtain ⟨streams', -, same⟩ := Except.bind_eq_ok.1 loaded
  cases same
  exact data_of_loadRoot front

theorem FailsIn.trueOf {vector : Bytes} (h : FailsIn data e vector) : e.TrueOf vector := by
  cases h with
  | headers failed => exact failed.trueOf
  | cliHeaderCut opened _ failed =>
    rw [← (File.ofBytes_eq_ok.1 opened).2.1]
    exact File.trueOf_of_sliceAt failed
  | cliHeader _ _ _ failed => exact Truthful.runAt failed
  | metadataCut loaded failed =>
    rw [← data_of_loadCliHeader loaded]
    exact File.trueOf_of_sliceAt failed
  | root _ _ failed => exact Root.trueOf_of_read failed
  | place loaded failed =>
    rw [← data_of_loadRoot loaded]
    exact Root.trueOf_of_place failed
  | tablesCut loaded failed =>
    rw [← data_of_loadStreams loaded]
    exact trueOf_of_tablesBytes failed
  | tables _ _ failed => exact Tables.trueOf_of_read failed
  | heaps loaded failed =>
    rw [← data_of_loadStreams loaded]
    exact trueOf_of_checkHeaps failed

theorem failsIn_of_ofBytes (h : File.ofBytes data = .error e) (out : e.IsOutOfBounds) :
    ∃ vector, FailsIn data e vector := by
  unfold File.ofBytes at h
  split at h
  · cases h
    exact out.elim
  · rcases Except.bind_eq_error.1 h with failed | ⟨_, -, ⟨⟩⟩
    obtain ⟨vector, failed⟩ := Headers.failsIn_of_read failed
    exact ⟨vector, .headers failed⟩

theorem failsIn_of_readCliHeader {file : File} (opened : File.ofBytes data = .ok file)
    (h : readCliHeader file = .error e) (out : e.IsOutOfBounds) : ∃ vector, FailsIn data e vector := by
  unfold readCliHeader at h
  split at h
  · cases h
    exact out.elim
  · next directory found =>
    rcases Except.bind_eq_error.1 h with failed | ⟨header, cut, failed⟩
    · exact ⟨data, .cliHeaderCut opened found failed⟩
    · exact ⟨header, .cliHeader opened found cut failed⟩

/-- An access that fails while an image is loaded was made by one of the readings. -/
theorem failsIn_of_load (h : ofBytes data = .error e) (out : e.IsOutOfBounds) :
    ∃ vector, FailsIn data e vector := by
  rcases Except.bind_eq_error.1 h with failed | ⟨file, opened, h⟩
  · exact failsIn_of_ofBytes failed out
  rcases Except.bind_eq_error.1 h with failed | ⟨cliHeader, header, h⟩
  · exact failsIn_of_readCliHeader opened failed out
  have front : loadCliHeader data = .ok (file, cliHeader) :=
    Except.bind_eq_ok.2 ⟨file, opened, Except.bind_eq_ok.2 ⟨cliHeader, header, rfl⟩⟩
  rcases Except.bind_eq_error.1 h with failed | ⟨metadata, cut, h⟩
  · exact ⟨data, .metadataCut front failed⟩
  rcases Except.bind_eq_error.1 h with failed | ⟨root, read, h⟩
  · exact ⟨metadata, .root front cut failed⟩
  have rooted : loadRoot data = .ok (file, cliHeader, root) := by
    refine Except.bind_eq_ok.2 ⟨(file, cliHeader), front, ?_⟩
    exact Except.bind_eq_ok.2 ⟨metadata, cut, Except.bind_eq_ok.2 ⟨root, read, rfl⟩⟩
  rcases Except.bind_eq_error.1 h with failed | ⟨streams, placed, h⟩
  · exact ⟨data, .place rooted failed⟩
  have streamed : loadStreams data = .ok (file, streams) :=
    Except.bind_eq_ok.2 ⟨(file, cliHeader, root), rooted, Except.bind_eq_ok.2 ⟨streams, placed, rfl⟩⟩
  rcases Except.bind_eq_error.1 h with failed | ⟨stream, found, h⟩
  · exact ⟨data, .tablesCut streamed failed⟩
  rcases Except.bind_eq_error.1 h with failed | ⟨tables, -, h⟩
  · exact ⟨stream, .tables streamed found failed⟩
  rcases Except.bind_eq_error.1 h with failed | ⟨_, -, ⟨⟩⟩
  exact ⟨data, .heaps streamed failed⟩

/-! ## The scan -/

variable {i : Image} {config : ScanConfig}

/-- A reading of the scan that fails a method, and the vector that it reads. -/
inductive ScanFailsIn (i : Image) : MethodFailure → Bytes → Prop where
  | address {method : Row MethodDefColumns} {e : Error}
      (listed : method ∈ i.tables.methodDefs.rows.toList)
      (failed : i.file.fileOffset method.columns.rva = .error e) :
      ScanFailsIn i ⟨method.rid, method.token, e⟩ i.data
  | body {method : Row MethodDefColumns} {offset : Nat} {e : Error}
      (listed : method ∈ i.tables.methodDefs.rows.toList)
      (found : i.file.fileOffset method.columns.rva = .ok offset)
      (failed : MethodBody.read i.data offset = .error e) :
      ScanFailsIn i ⟨method.rid, method.token, e⟩ i.data
  | code {code : MethodCode} {e : Error} (located : code ∈ i.methodBodies.found)
      (failed : StringSite.findAll (code.bytes i.data) = .error e) :
      ScanFailsIn i ⟨code.rid, code.token, e⟩ (code.bytes i.data)
  | heap {code : MethodCode} {sites : List StringSite} {site : StringSite} {heap : UserStringHeap}
      {e : Error} (located : code ∈ i.methodBodies.found)
      (found : StringSite.findAll (code.bytes i.data) = .ok sites) (listed : site ∈ sites)
      (opened : i.userStrings? = some heap)
      (failed : heap.get site.token.index.toNat = .error e) :
      ScanFailsIn i ⟨code.rid, code.token, e⟩ heap.data

theorem ScanFailsIn.trueOf {failure : MethodFailure} {vector : Bytes}
    (h : ScanFailsIn i failure vector) : failure.error.TrueOf vector := by
  cases h with
  | address _ failed => exact File.trueOf_of_fileOffset failed
  | body _ _ failed => exact MethodBody.trueOf_of_read failed
  | code _ failed => exact StringSite.trueOf_of_findAll failed
  | heap _ _ _ _ failed => exact UserStringHeap.trueOf_of_get failed

theorem scanFailsIn_of_locate {method : Row MethodDefColumns}
    (listed : method ∈ i.tables.methodDefs.rows.toList)
    (h : MethodCode.locate i.file method = .error e) :
    ScanFailsIn i ⟨method.rid, method.token, e⟩ i.data := by
  unfold MethodCode.locate at h
  split at h
  · rcases Except.bind_eq_error.1 h with failed | ⟨offset, found, h⟩
    · exact .address listed failed
    · rcases Except.bind_eq_error.1 h with failed | ⟨_, -, ⟨⟩⟩
      exact .body listed found failed
  · cases h

/-- A site is refused for its token, or for what the heap has at the position of the token. -/
theorem get_eq_error_of_resolve {code : MethodCode} {site : StringSite}
    (h : (LoadScope.ofImage i config).resolve code site = .error e) (out : e.IsOutOfBounds) :
    ∃ heap, i.userStrings? = some heap ∧ heap.get site.token.index.toNat = .error e := by
  cases known : site.token.isUserString with
  | false =>
    rw [LoadScope.resolve_of_foreign known] at h
    split at h <;> cases h
    exact out.elim
  | true =>
    cases opened : i.userStrings? with
    | none =>
      rw [LoadScope.resolve_of_no_heap known opened] at h
      cases h
      exact out.elim
    | some heap =>
      rw [LoadScope.resolve_of_heap known opened] at h
      rcases Except.bind_eq_error.1 h with failed | ⟨entry, -, h⟩
      · exact ⟨heap, rfl, failed⟩
      · split at h <;> cases h
        exact out.elim

/-- An access that fails while a method is scanned was made by one of the readings. -/
theorem scanFailsIn_of_mem {failure : MethodFailure} (mem : failure ∈ (i.scan config).failures)
    (out : failure.error.IsOutOfBounds) : ∃ vector, ScanFailsIn i failure vector := by
  rcases mem_scan_failures.1 mem with unlocated | ⟨code, located, e, failed, rfl⟩
  · obtain ⟨method, listed, e, failed, rfl⟩ := MethodBodies.mem_failures.1 unlocated
    exact ⟨i.data, scanFailsIn_of_locate listed failed⟩
  · obtain ⟨order, fits⟩ := codeSpan_fits located
    have whole := LoadScope.sites_eq order fits
    rcases Except.bind_eq_error.1 failed with failed | ⟨sites, found, failed⟩
    · exact ⟨code.bytes i.data, .code located (whole ▸ failed)⟩
    · rcases Except.bind_eq_error.1 failed with failed | ⟨_, -, ⟨⟩⟩
      obtain ⟨site, listed, failed⟩ := Except.mapM_eq_error failed
      obtain ⟨heap, opened, failed⟩ := get_eq_error_of_resolve failed out
      exact ⟨heap.data, .heap located (whole ▸ found) listed opened failed⟩

/-! ## Every error about an access -/

/--
**An error about an access is true.** Where reading the headers, loading an image,
reading a method body or an instruction, or a method of a scan fails with such an
error, the size that it tells is that of the vector whose reading failed with it,
and the access that it tells of ends behind that vector.
-/
theorem outOfBounds_truthful (data : Bytes) (offset needed available : Nat) :
    let e := Error.outOfBounds offset needed available
    (Headers.read.run data = .error e → ∃ vector, Headers.FailsIn data e vector ∧
      available = vector.size ∧ available < offset + needed) ∧
    (ofBytes data = .error e → ∃ vector, FailsIn data e vector ∧
      available = vector.size ∧ available < offset + needed) ∧
    (∀ start, MethodBody.read data start = .error e →
      available = data.size ∧ available < offset + needed) ∧
    (∀ pos, Instruction.read.runAt data pos = .error e →
      available = data.size ∧ available < offset + needed) ∧
    ∀ i, ofBytes data = .ok i → ∀ config, ∀ failure ∈ (i.scan config).failures, failure.error = e →
      ∃ vector, ScanFailsIn i failure vector ∧
        available = vector.size ∧ available < offset + needed := by
  intro e
  have out : e.IsOutOfBounds := trivial
  refine ⟨fun h => ?headers, fun h => ?loading, fun start h => ?body, fun pos h => ?instruction, ?scan⟩
  case headers =>
    obtain ⟨vector, failed⟩ := Headers.failsIn_of_read h
    exact ⟨vector, failed, failed.trueOf.overrun⟩
  case loading =>
    obtain ⟨vector, failed⟩ := failsIn_of_load h out
    exact ⟨vector, failed, failed.trueOf.overrun⟩
  case body => exact (MethodBody.trueOf_of_read h).overrun
  case instruction => exact (Truthful.runAt h : e.TrueOf data).overrun
  case scan =>
    intro i _ config failure mem same
    obtain ⟨vector, failed⟩ := scanFailsIn_of_mem mem (same ▸ out)
    have true_of := failed.trueOf
    rw [same] at true_of
    exact ⟨vector, failed, true_of.overrun⟩

/-- The stub header is cut off, and an entry of the heap of user strings runs past the heap. -/
theorem outOfBounds_truthful_small :
    (∃ vector, Headers.FailsIn #[0x4D, 0x5A] (.outOfBounds 0 128 2) vector ∧ 2 = vector.size) ∧
    ∃ i, ofBytes smallImage = .ok i ∧ ∃ failure ∈ (i.scan .standard).failures,
      failure.error = .outOfBounds 3 64 7 ∧
      ∃ vector, ScanFailsIn i failure vector ∧ 7 = vector.size ∧ 7 < 3 + 64 := by
  constructor
  · obtain ⟨headers, -⟩ := outOfBounds_truthful #[0x4D, 0x5A] 0 128 2
    have cutOff : Headers.read.run #[0x4D, 0x5A] = .error (.outOfBounds 0 128 2) := rfl
    obtain ⟨vector, failed, size, -⟩ := headers cutOff
    exact ⟨vector, failed, size⟩
  · obtain ⟨i, loaded, errors⟩ := exists_smallImage
      (p := fun i => (i.scan .standard).failures.map (·.error) = [.outOfBounds 3 64 7])
      (by decide +kernel)
    obtain ⟨-, -, -, -, scan⟩ := outOfBounds_truthful smallImage 3 64 7
    have some : Error.outOfBounds 3 64 7 ∈ (i.scan .standard).failures.map (·.error) := by
      rw [errors]
      exact List.mem_singleton_self _
    obtain ⟨failure, mem, error⟩ := List.mem_map.1 some
    obtain ⟨vector, failed, size, past⟩ := scan i loaded .standard failure mem error
    exact ⟨i, loaded, failure, mem, error, vector, failed, size, past⟩

end Image

end ManagedImage
