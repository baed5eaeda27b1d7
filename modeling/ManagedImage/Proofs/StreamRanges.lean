/-
Where the streams of a loaded image lie in the file. The metadata root bounds
each stream by the size of the metadata, and the section table then places its
first byte; the two agree only as long as one section holds both the root and the
stream. So each stream begins in the file (`Image.streams_inside`), and those that
loading itself cuts out end there, that is the stream of tables and the first
stream of each name of a heap.

What does not hold is that every stream ends in the file. A section of its own can
place a stream that loading has no use for at the last byte of the file
(`Image.strayImage_stream`), and the range of such a stream is reported all the
same.
-/
import ManagedImage.Proofs.HeaderReads
import ManagedImage.Proofs.MethodScan

namespace ManagedImage

open Reader

/-! ## The bound of the metadata root -/

namespace Root

theorem stop_le_of_readStream {size : Nat} {c c' : Cursor} {h : StreamHeader}
    (read : readStream size c = .ok h c') : h.stop ≤ size := by
  obtain ⟨entry, c₁, -, read⟩ := bind_eq_ok.1 read
  split at read
  · cases read
  · split at read
    · cases read
    · rename_i inside
      obtain ⟨rfl, -⟩ := pure_eq_ok.1 read
      exact Nat.le_of_not_lt inside

theorem stop_le_of_read {metadata : Bytes} {r : Root} (h : read metadata = .ok r) :
    ∀ s ∈ r.streams, s.stop ≤ metadata.size := by
  obtain ⟨c', whole⟩ := read_eq_ok.1 h
  obtain ⟨header, c₁, -, whole⟩ := bind_eq_ok.1 whole
  obtain ⟨streams, c₂, entries, whole⟩ := bind_eq_ok.1 whole
  obtain ⟨rfl, -⟩ := pure_eq_ok.1 whole
  intro s listed
  obtain ⟨c₃, c₄, one⟩ := mem_of_times entries listed
  exact stop_le_of_readStream one

end Root

/-! ## The place in the file -/

theorem toNat_add_of_fits {rva d : UInt32} (fits : rva.toNat + d.toNat < 0x100000000) :
    (rva + d).toNat = rva.toNat + d.toNat := by
  rw [UInt32.toNat_add]
  exact Nat.mod_eq_of_lt fits

/-- Two addresses of one section are as far apart in the file as in memory. -/
theorem SectionTable.fileOffset_add {t : SectionTable} {rva : UInt32} {d : UInt32}
    {start offset : Nat} (found : t.fileOffset rva = .ok start)
    (fits : rva.toNat + d.toNat < 0x100000000) (same : t.holding? (rva + d) = t.holding? rva)
    (found' : t.fileOffset (rva + d) = .ok offset) : offset = start + d.toNat := by
  obtain ⟨s, held, -, rfl⟩ := fileOffset_eq_ok.1 found
  obtain ⟨s', held', -, rfl⟩ := fileOffset_eq_ok.1 found'
  obtain rfl : s' = s := Option.some.inj (held'.symm.trans (same.trans held))
  have low : s'.Holds rva := by simpa using List.find?_some held
  have above := low.1
  rw [Section.depth, Section.depth, toNat_add_of_fits fits]
  omega

theorem File.size_of_sliceAt {f : File} {rva : UInt32} {length : Nat} {part : Bytes}
    (cut : f.sliceAt rva length = .ok part) : part.size = length := by
  obtain ⟨start, -, cut⟩ := Except.bind_eq_ok.1 cut
  obtain ⟨fits, rfl⟩ := Bytes.slice_eq_ok.1 cut
  rw [Array.size_extract, Nat.min_eq_left fits, Nat.add_sub_cancel_left]

namespace Image

variable {data : Bytes} {i : Image}

theorem mem_streams (loaded : Loaded data i) {s : Stream} (listed : s ∈ i.streams) :
    s.toStreamHeader ∈ i.root.streams ∧
      i.cliHeader.metadata.rva.toNat + s.offset.toNat < 0x100000000 ∧
      i.file.fileOffset (i.cliHeader.metadata.rva + s.offset) = .ok s.fileOffset := by
  obtain ⟨header, mem, placed⟩ := forall₂_of_mem (Root.place_eq_ok.1 loaded.streams).flip listed
  obtain ⟨fits, offset, found, rfl⟩ := Stream.place_eq_ok.1 placed
  exact ⟨mem, fits, found⟩

/-- A heap is cut out when the image is loaded, so its stream ends in the file. -/
theorem stop_le_of_openHeap {α : Type} {name : String} {make : Bytes → Except Error α}
    (opened : ∃ heap, openHeap i.data i.streams name make = .ok heap) {span : Span}
    (known : i.streamSpan? name = some span) : span.stop ≤ i.data.size := by
  obtain ⟨s, found, rfl⟩ := Option.map_eq_some_iff.1 known
  obtain ⟨heap, opened⟩ := opened
  obtain ⟨bytes, a, cut, -, -⟩ := openHeap_eq_ok opened found
  exact (Bytes.slice_eq_ok.1 cut).1

/-- The streams that are heaps. -/
def heapNames : List String := ["#Strings", "#US", "#GUID", "#Blob"]

theorem heap_inside (loaded : Loaded data i) {name : String} (listed : name ∈ heapNames)
    {span : Span} (known : i.streamSpan? name = some span) : span.stop ≤ i.data.size := by
  obtain ⟨strings, userStrings, guids, blobs⟩ := loaded.heaps_open
  simp only [heapNames, List.mem_cons, List.not_mem_nil, or_false] at listed
  rcases listed with rfl | rfl | rfl | rfl
  · exact stop_le_of_openHeap strings known
  · exact stop_le_of_openHeap userStrings known
  · exact stop_le_of_openHeap guids known
  · exact stop_le_of_openHeap blobs known

theorem tables_inside (loaded : Loaded data i) {s : Stream}
    (known : tablesStream i.stream? = .ok s) : s.span.stop ≤ i.data.size := by
  obtain ⟨stream, cut, -⟩ := loaded.tables
  obtain ⟨s', found, cut⟩ := Except.bind_eq_ok.1 cut
  obtain rfl : s' = s := Except.ok.inj (found.symm.trans known)
  exact (Bytes.slice_eq_ok.1 cut).1

/-- The root bounds each stream by the size of the metadata. -/
theorem stop_le_metadata (loaded : Loaded data i) {s : Stream} (listed : s ∈ i.streams) :
    s.stop ≤ i.cliHeader.metadata.size.toNat := by
  obtain ⟨metadata, cut, read⟩ := loaded.root
  have within := Root.stop_le_of_read read _ (mem_streams loaded listed).1
  rw [File.size_of_sliceAt cut] at within
  exact within

/-- In the section of the metadata root a stream is as deep in the file as the root says. -/
theorem fileOffset_of_one_section (loaded : Loaded data i) {start : Nat}
    (found : i.file.fileOffset i.cliHeader.metadata.rva = .ok start)
    {s : Stream} (listed : s ∈ i.streams)
    (same : i.file.headers.sections.holding? (i.cliHeader.metadata.rva + s.offset) =
      i.file.headers.sections.holding? i.cliHeader.metadata.rva) :
    s.fileOffset = start + s.offset.toNat := by
  obtain ⟨-, noWrap, found'⟩ := mem_streams loaded listed
  exact SectionTable.fileOffset_add (File.fileOffset_eq_ok.1 found).1 noWrap same
    (File.fileOffset_eq_ok.1 found').1

/-- Where the section of the metadata root holds a stream, the bound of the root is one in the file. -/
theorem inside_of_one_section (loaded : Loaded data i) {s : Stream} (listed : s ∈ i.streams)
    (same : i.file.headers.sections.holding? (i.cliHeader.metadata.rva + s.offset) =
      i.file.headers.sections.holding? i.cliHeader.metadata.rva) :
    s.span.stop ≤ i.data.size := by
  obtain ⟨metadata, cut, -⟩ := loaded.root
  obtain ⟨start, found, cut⟩ := Except.bind_eq_ok.1 cut
  have whole : start + i.cliHeader.metadata.size.toNat ≤ i.data.size := (Bytes.slice_eq_ok.1 cut).1
  have place := fileOffset_of_one_section loaded found listed same
  have bound : s.offset.toNat + s.size.toNat ≤ i.cliHeader.metadata.size.toNat :=
    stop_le_metadata loaded listed
  show s.fileOffset + s.size.toNat ≤ i.data.size
  omega

/--
**Where the streams of a loaded image lie.** Each stream begins in the file. It
ends there too if it is the stream of tables or the first one of the name of a
heap, and whatever its name if the section of the metadata root is the one that
holds its first byte.
-/
theorem streams_inside (h : ofBytes data = .ok i) :
    (∀ s ∈ i.streams, s.fileOffset < i.data.size) ∧
      (∀ s, tablesStream i.stream? = .ok s → s.span.stop ≤ i.data.size) ∧
      (∀ name ∈ heapNames, ∀ span, i.streamSpan? name = some span → span.stop ≤ i.data.size) ∧
      ∀ s ∈ i.streams,
        i.file.headers.sections.holding? (i.cliHeader.metadata.rva + s.offset) =
            i.file.headers.sections.holding? i.cliHeader.metadata.rva →
          s.span.stop ≤ i.data.size := by
  have loaded := ofBytes_eq_ok.1 h
  refine ⟨fun s listed => ?_, fun s => tables_inside loaded, ?_, ?_⟩
  · obtain ⟨-, -, found⟩ := mem_streams loaded listed
    exact (File.fileOffset_eq_ok.1 found).2
  · exact fun name listed span => heap_inside loaded listed
  · exact fun s listed => inside_of_one_section loaded listed

theorem streams_inside_small :
    ∃ i, ofBytes smallImage = .ok i ∧ (∀ s ∈ i.streams, s.fileOffset < i.data.size) ∧
      ∀ name ∈ heapNames, ∀ span, i.streamSpan? name = some span → span.stop ≤ i.data.size := by
  obtain ⟨i, loaded, -⟩ := smallImage_scan
  obtain ⟨start, -, heaps, -⟩ := streams_inside loaded
  exact ⟨i, loaded, start, heaps⟩

/-! ## A stream that ends behind the file -/

/--
An image of two sections: the second is the whole file at address `0x1000`, the
first has the four addresses from `0x1220` on at the last byte of the file. There
the metadata root, which lies in the second section, has its stream `#X`.
-/
def strayImage : Bytes :=
  let half := Bytes.leBytes 2
  let word := Bytes.leBytes 4
  let zeros := fun n => List.replicate n 0
  -- the stub header up to its last field, the signature and the file header
  (half 0x5A4D ++ zeros 58 ++ word 64 ++
    [0x50, 0x45, 0, 0] ++ half 0x14C ++ half 2 ++ zeros 12 ++ half 216 ++ half 0 ++
  -- the optional header; of its fifteen directories only the last points anywhere
    half 0x10B ++ zeros 90 ++ word 15 ++ zeros 112 ++ word 0x1180 ++ word 72 ++
  -- the two sections and the CLI header
    zeros 8 ++ word 4 ++ word 0x1220 ++ word 4 ++ word 547 ++ zeros 16 ++
    zeros 8 ++ word 548 ++ word 0x1000 ++ word 548 ++ zeros 20 ++
    word 72 ++ zeros 4 ++ word 0x11C8 ++ word 92 ++ zeros 56 ++
  -- the metadata root and its two streams
    word 0x424A5342 ++ zeros 8 ++ word 4 ++ [0x76, 0, 0, 0] ++ half 0 ++ half 2 ++
    word 48 ++ word 40 ++ [0x23, 0x7E, 0, 0] ++
    word 88 ++ word 4 ++ [0x23, 0x58, 0, 0] ++
  -- an empty table of methods, and four more bytes of metadata
    word 0 ++ [2, 0, 0, 1] ++ word 0x40 ++ zeros 12 ++ word 0 ++ zeros 12 ++ zeros 4).toArray

/-- The image loads, and the range of one of its streams ends behind the file. -/
theorem strayImage_stream :
    ∃ i, ofBytes strayImage = .ok i ∧ i.data.size = 548 ∧
      i.streamSpan? "#X" = some ⟨547, 551⟩ ∧ ∃ s ∈ i.streams, ¬ s.span.stop ≤ i.data.size :=
  Except.exists_of_check (by decide +kernel)

end Image

end ManagedImage
