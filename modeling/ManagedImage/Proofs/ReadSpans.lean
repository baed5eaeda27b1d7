/-
What of a file is read when an image is loaded and its methods are found: the
headers, the metadata root with its list of streams, the stream of tables, the
first bytes of the heaps that must begin with zero, and of each method with a
body the header and the code (`Image.readSpans`).

A file of the same size with the same bytes there, and with the same first byte
of the heap of user strings, loads as the same image up to the bytes
(`loaded_of_alike`), with the same method bodies (`methodBodies_of_alike`).
-/
import ManagedImage.Proofs.HeaderReads
import ManagedImage.Proofs.Loading

namespace ManagedImage

/-! ## Files of one size -/

namespace File

/-- The same headers over other bytes. -/
def withData (f : File) (data : Bytes) : File := { f with data }

/-- The range of `length` bytes at an address, if the address lies in the file. -/
def spanAt (f : File) (rva : UInt32) (length : Nat) : List Span :=
  match f.fileOffset rva with
  | .ok offset => [⟨offset, offset + length⟩]
  | .error _ => []

variable {f : File} {b : Bytes}

theorem fileOffset_withData (size : f.data.size = b.size) :
    (f.withData b).fileOffset = f.fileOffset := by
  funext rva
  unfold fileOffset withData
  rw [size]

theorem mem_spanAt {rva : UInt32} {length offset : Nat} (found : f.fileOffset rva = .ok offset) :
    ⟨offset, offset + length⟩ ∈ f.spanAt rva length := by
  rw [spanAt, found]
  exact List.mem_cons_self

theorem sliceAt_congr {rva : UInt32} {length : Nat} (size : f.data.size = b.size)
    (agree : ∀ span ∈ f.spanAt rva length, f.data.Agree b span.start span.stop) :
    (f.withData b).sliceAt rva length = f.sliceAt rva length := by
  unfold sliceAt
  rw [fileOffset_withData size]
  cases found : f.fileOffset rva with
  | error e => rfl
  | ok offset => exact ((agree _ (mem_spanAt found)).slice size).symm

end File

/-! ## What is read -/

/-- What is read to find the body of a method, and its code. -/
def MethodCode.readSpans (f : File) (method : Row MethodDefColumns) : List Span :=
  if method.columns.hasBody then
    match f.fileOffset method.columns.rva with
    | .ok offset =>
      ⟨offset, offset + MethodBody.examined f.data offset⟩ ::
        match MethodBody.read f.data offset with
        | .ok body => [body.codeSpan]
        | .error _ => []
    | .error _ => []
  else []

namespace Image

/-- How far the metadata root and its list of streams reach into the metadata. -/
def rootExtent (i : Image) : Nat :=
  match metadataBytes i.file i.cliHeader with
  | .ok metadata => Root.extent metadata
  | .error _ => 0

/-- The headers: of the file, of the image and of the metadata. -/
def headerSpans (i : Image) : List Span :=
  [⟨0, StubHeader.size⟩, i.file.headers.span] ++
    i.file.cliDirectory?.toList.flatMap (fun directory => i.file.spanAt directory.rva CliHeader.size) ++
    i.file.spanAt i.cliHeader.metadata.rva i.rootExtent

/-- The stream of tables, and the first bytes of the heaps of strings and of blobs. -/
def streamSpans (i : Image) : List Span :=
  ((tablesStream (findStream? i.streams)).toOption.toList.map Stream.span) ++
    ["#Strings", "#Blob"].filterMap fun name =>
      (i.streamSpan? name).map fun span => ⟨span.start, span.start + 1⟩

/-- All that is read outside of the heap of user strings to scan an image. -/
def readSpans (i : Image) : List Span :=
  i.headerSpans ++ i.streamSpans ++
    i.tables.methodDefs.rows.toList.flatMap (MethodCode.readSpans i.file)

/-- The same image over other bytes. -/
def withData (i : Image) (data : Bytes) : Image := { i with file := i.file.withData data }

/-- Bytes that are those of an image wherever the image is read. -/
structure Alike (i : Image) (b : Bytes) : Prop where
  size : i.data.size = b.size
  reads : ∀ span ∈ i.readSpans, i.data.Agree b span.start span.stop
  first : ∀ us, i.streamSpan? "#US" = some us → i.data.Agree b us.start (us.start + 1)

variable {data b : Bytes} {i : Image}

namespace Alike

theorem headers (alike : i.Alike b) {span : Span} (mem : span ∈ i.headerSpans) :
    i.data.Agree b span.start span.stop :=
  alike.reads span (List.mem_append_left _ (List.mem_append_left _ mem))

theorem streams (alike : i.Alike b) {span : Span} (mem : span ∈ i.streamSpans) :
    i.data.Agree b span.start span.stop :=
  alike.reads span (List.mem_append_left _ (List.mem_append_right _ mem))

theorem methods (alike : i.Alike b) {method : Row MethodDefColumns}
    (listed : method ∈ i.tables.methodDefs.rows.toList) {span : Span}
    (mem : span ∈ MethodCode.readSpans i.file method) : i.data.Agree b span.start span.stop :=
  alike.reads span (List.mem_append_right _ (List.mem_flatMap.2 ⟨method, listed, mem⟩))

end Alike

/-! ## Loading -/

theorem file_of_alike (loaded : Loaded data i) (alike : i.Alike b) :
    File.ofBytes b = .ok (i.file.withData b) := by
  obtain ⟨filled, same, read⟩ := File.ofBytes_eq_ok.1 loaded.file
  have size : i.file.data.size = b.size := alike.size
  refine File.ofBytes_eq_ok.2 ⟨?_, rfl, ?_⟩
  · rw [Array.isEmpty] at filled ⊢
    rw [← size, same]
    exact filled
  · refine Headers.read_congr (a := i.file.data) (same ▸ read) size ?_ ?_
    · exact @Alike.headers _ _ alike ⟨0, StubHeader.size⟩ (by simp [headerSpans])
    · exact @Alike.headers _ _ alike i.file.headers.span (by simp [headerSpans])

theorem cliHeader_of_alike (loaded : Loaded data i) (alike : i.Alike b) :
    readCliHeader (i.file.withData b) = .ok i.cliHeader := by
  have read := loaded.cliHeader
  unfold readCliHeader at read ⊢
  rw [show (i.file.withData b).cliDirectory? = i.file.cliDirectory? from rfl]
  cases found : i.file.cliDirectory? with
  | none => rw [found] at read; cases read
  | some directory =>
    rw [found] at read
    dsimp only at read ⊢
    rw [File.sliceAt_congr alike.size fun span mem => alike.headers ?_]
    · exact read
    · refine List.mem_append_left _ (List.mem_append_right _ ?_)
      rw [found]
      exact List.mem_flatMap.2 ⟨directory, List.mem_cons_self, mem⟩

/-- Only the root of the metadata is read when the root is read. -/
theorem root_of_alike (loaded : Loaded data i) (alike : i.Alike b) :
    ∃ metadata, metadataBytes (i.file.withData b) i.cliHeader = .ok metadata ∧
      Root.read metadata = .ok i.root := by
  obtain ⟨metadata, cut, read⟩ := loaded.root
  have extent : i.rootExtent = Root.extent metadata := by rw [rootExtent, cut]
  obtain ⟨offset, found, cut⟩ := Except.bind_eq_ok.1 cut
  obtain ⟨fits, rfl⟩ := Bytes.slice_eq_ok.1 cut
  have size : i.file.data.size = b.size := alike.size
  refine ⟨b.extract offset (offset + i.cliHeader.metadata.size.toNat), ?_, ?_⟩
  · refine Except.bind_eq_ok.2 ⟨offset, ?_, Bytes.slice_eq_ok.2 ⟨size ▸ fits, rfl⟩⟩
    rw [File.fileOffset_withData size]
    exact found
  · have agree := alike.headers (List.mem_append_right _ (File.mem_spanAt found))
    refine Root.read_congr read ?_ fun k _ high => ?_
    · simp only [Array.size_extract, size]
    · simp only [Array.getElem?_extract, size]
      split
      · exact agree _ (Nat.le_add_right ..) (Nat.add_lt_add_left (extent ▸ high) _)
      · rfl

theorem streams_of_alike (loaded : Loaded data i) (alike : i.Alike b) :
    (i.root.place i.cliHeader.metadata.rva (i.file.withData b).fileOffset).toExcept =
      .ok i.streams := by
  rw [File.fileOffset_withData alike.size]
  exact loaded.streams

theorem tables_of_alike (loaded : Loaded data i) (alike : i.Alike b) :
    ∃ stream, tablesBytes (i.file.withData b) i.streams = .ok stream ∧
      Tables.read stream = .ok i.tables := by
  obtain ⟨stream, cut, read⟩ := loaded.tables
  refine ⟨stream, ?_, read⟩
  obtain ⟨s, found, cut⟩ := Except.bind_eq_ok.1 cut
  have there : s.span ∈ i.streamSpans := by
    refine List.mem_append_left _ (List.mem_map.2 ⟨s, ?_, rfl⟩)
    rw [found]
    exact List.mem_cons_self
  refine Except.bind_eq_ok.2 ⟨s, found, ?_⟩
  rw [← cut]
  exact (Bytes.Agree.slice (alike.streams there) alike.size).symm

/-- A heap whose soundness shows in its size and its first byte is opened as before. -/
theorem openHeap_of_first {α : Type} {name : String} {make : Bytes → Except Error α}
    {heap : Option α} (opened : openHeap i.data i.streams name make = .ok heap)
    (size : i.data.size = b.size)
    (first : ∀ s, findStream? i.streams name = some s →
      ∀ bytes bytes', i.data.slice s.fileOffset s.size.toNat = .ok bytes →
        b.slice s.fileOffset s.size.toNat = .ok bytes' → ∀ a, make bytes = .ok a →
          ∃ a', make bytes' = .ok a') :
    ∃ heap', openHeap b i.streams name make = .ok heap' := by
  cases found : findStream? i.streams name with
  | none => exact ⟨none, by unfold openHeap streamBytes; rw [found]; rfl⟩
  | some s =>
    obtain ⟨bytes, a, cut, made, rfl⟩ := openHeap_eq_ok opened found
    obtain ⟨fits, -⟩ := Bytes.slice_eq_ok.1 cut
    have cut' := Bytes.slice_eq_ok.2 ⟨size ▸ fits, rfl⟩
    obtain ⟨a', made'⟩ := first s found _ _ cut cut' a made
    refine ⟨some a', Except.bind_eq_ok.2 ⟨some _, ?_, Except.map_eq_ok.2 ⟨a', made', rfl⟩⟩⟩
    unfold streamBytes
    rw [found]
    exact Except.map_eq_ok.2 ⟨_, cut', rfl⟩

theorem opens_of_first {α : Type} {f : Bytes → α} {e : Error} {x y : Bytes} (same : x[0]? = y[0]?)
    {a : α} (made : (if x[0]? = some 0 then Except.ok (f x) else .error e) = .ok a) :
    ∃ a', (if y[0]? = some 0 then Except.ok (f y) else .error e) = .ok a' := by
  split at made
  case isTrue zero => exact ⟨f y, if_pos (same ▸ zero)⟩
  case isFalse => cases made

theorem first_of_slices {a x y : Bytes} {offset length : Nat} (cut : a.slice offset length = .ok x)
    (cut' : b.slice offset length = .ok y) (agree : a.Agree b offset (offset + 1)) :
    x[0]? = y[0]? := by
  obtain ⟨fits, rfl⟩ := Bytes.slice_eq_ok.1 cut
  obtain ⟨fits', rfl⟩ := Bytes.slice_eq_ok.1 cut'
  rw [Array.getElem?_extract, Array.getElem?_extract, Nat.min_eq_left fits, Nat.min_eq_left fits']
  split
  · exact agree _ (Nat.le_refl _) (Nat.lt_succ_self _)
  · rfl

theorem guids_of_size {x y : Bytes} (size : x.size = y.size) {heap : GuidHeap}
    (made : GuidHeap.ofBytes x = .ok heap) : ∃ heap', GuidHeap.ofBytes y = .ok heap' := by
  unfold GuidHeap.ofBytes at made ⊢
  split at made
  case isTrue whole => exact ⟨_, if_pos (size ▸ whole)⟩
  case isFalse => cases made

theorem size_of_slices {a x y : Bytes} {offset length : Nat} (cut : a.slice offset length = .ok x)
    (cut' : b.slice offset length = .ok y) : x.size = y.size := by
  obtain ⟨fits, rfl⟩ := Bytes.slice_eq_ok.1 cut
  obtain ⟨fits', rfl⟩ := Bytes.slice_eq_ok.1 cut'
  rw [Array.size_extract, Array.size_extract, Nat.min_eq_left fits, Nat.min_eq_left fits']

theorem heaps_of_alike (loaded : Loaded data i) (alike : i.Alike b) :
    checkHeaps b i.streams = .ok () := by
  obtain ⟨⟨_, strings⟩, ⟨_, userStrings⟩, ⟨_, guids⟩, ⟨_, blobs⟩⟩ := loaded.heaps_open
  have listed : ∀ name ∈ ["#Strings", "#Blob"], ∀ s, findStream? i.streams name = some s →
      i.data.Agree b s.fileOffset (s.fileOffset + 1) := by
    intro name mem s found
    have span : i.streamSpan? name = some s.span := Option.map_eq_some_iff.2 ⟨s, found, rfl⟩
    have there : (⟨s.fileOffset, s.fileOffset + 1⟩ : Span) ∈ i.streamSpans := by
      refine List.mem_append_right _ (List.mem_filterMap.2 ⟨name, mem, ?_⟩)
      rw [span]
      rfl
    exact alike.streams there
  refine checkHeaps_eq_ok.2 ⟨?_, ?_, ?_, ?_⟩
  · exact openHeap_of_first strings alike.size fun s found x y cut cut' _ made =>
      opens_of_first (first_of_slices cut cut' (listed _ (by simp) s found)) made
  · exact openHeap_of_first userStrings alike.size fun s found x y cut cut' _ made => by
      have span : i.streamSpan? "#US" = some s.span := Option.map_eq_some_iff.2 ⟨s, found, rfl⟩
      exact opens_of_first (first_of_slices cut cut' (alike.first s.span span)) made
  · exact openHeap_of_first guids alike.size fun _ _ _ _ cut cut' _ made =>
      guids_of_size (size_of_slices cut cut') made
  · exact openHeap_of_first blobs alike.size fun s found x y cut cut' _ made =>
      opens_of_first (first_of_slices cut cut' (listed _ (by simp) s found)) made

/-- Bytes that are alike where the image is read load as the same image over these bytes. -/
theorem loaded_of_alike (loaded : Loaded data i) (alike : i.Alike b) : Loaded b (i.withData b) where
  file := @file_of_alike data b i loaded alike
  cliHeader := @cliHeader_of_alike data b i loaded alike
  root := @root_of_alike data b i loaded alike
  streams := @streams_of_alike data b i loaded alike
  tables := @tables_of_alike data b i loaded alike
  heaps := @heaps_of_alike data b i loaded alike

end Image

/-! ## Method bodies -/

theorem MethodCode.locate_congr {f : File} {b : Bytes} {method : Row MethodDefColumns}
    (size : f.data.size = b.size)
    (agree : ∀ span ∈ MethodCode.readSpans f method, f.data.Agree b span.start span.stop) :
    MethodCode.locate (f.withData b) method = MethodCode.locate f method := by
  unfold MethodCode.locate
  unfold MethodCode.readSpans at agree
  split
  case isTrue hasBody =>
    rw [if_pos hasBody] at agree
    rw [File.fileOffset_withData size]
    cases found : f.fileOffset method.columns.rva with
    | error e => rfl
    | ok offset =>
      rw [found] at agree
      have same := MethodBody.read_congr size (agree _ List.mem_cons_self)
      show (MethodBody.read b offset >>= _) = (MethodBody.read f.data offset >>= _)
      rw [same]
  case isFalse => rfl

theorem MethodBodies.locate_congr {f g : File} {methods : List (Row MethodDefColumns)}
    (same : ∀ method ∈ methods, MethodCode.locate g method = MethodCode.locate f method) :
    MethodBodies.locate g methods = MethodBodies.locate f methods := by
  induction methods with
  | nil => rfl
  | cons method methods ih =>
    have first := same method List.mem_cons_self
    have later := ih fun other mem => same other (List.mem_cons_of_mem _ mem)
    show (MethodBodies.locate g methods).add method _ = (MethodBodies.locate f methods).add method _
    rw [first, later]

namespace Image

variable {data b : Bytes} {i : Image}

theorem methodBodies_of_alike (alike : i.Alike b) : (i.withData b).methodBodies = i.methodBodies :=
  MethodBodies.locate_congr fun _ listed =>
    MethodCode.locate_congr alike.size fun _ mem => alike.methods listed mem

theorem code_of_alike (alike : i.Alike b) {code : MethodCode} (mem : code ∈ i.methodBodies.found) :
    i.data.Agree b code.body.codeSpan.start code.body.codeSpan.stop := by
  obtain ⟨method, listed, found⟩ := MethodBodies.mem_found.1 mem
  apply alike.methods listed
  unfold MethodCode.locate at found
  unfold MethodCode.readSpans
  split at found
  case isTrue hasBody =>
    obtain ⟨offset, place, found⟩ := Except.bind_eq_ok.1 found
    obtain ⟨body, read, found⟩ := Except.bind_eq_ok.1 found
    cases found
    rw [if_pos hasBody, place]
    dsimp only
    rw [read]
    exact List.mem_cons_of_mem _ List.mem_cons_self
  case isFalse => cases found

end Image

end ManagedImage
