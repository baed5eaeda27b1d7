/-
The two ways to the bytes of a stream. The root is read from the metadata as one
part of the file and bounds every stream by the size of that part; afterwards each
stream is looked up by its address, for itself. In the section that holds the root
both ways lead to the same bytes (`Image.stream_of_metadata`).

The look-up can fail for a stream that the root has let pass, though one section
alone holds the metadata with all of its bytes. The root asks where a stream ends
and the look-up where it begins: an empty stream at the end of the metadata has
the address behind it, which need not be in the file, and behind the last address
there is none. No other stream fails (`Root.place_of_backed`).
-/
import ManagedImage.Proofs.SectionLookup
import ManagedImage.Proofs.StreamRanges

namespace ManagedImage

theorem exists_forall₂ {α β : Type} {R : α → β → Prop} {as : List α} :
    (∃ bs, List.Forall₂ R as bs) ↔ ∀ a ∈ as, ∃ b, R a b := by
  constructor
  · intro ⟨bs, all⟩ a mem
    obtain ⟨b, -, related⟩ := forall₂_of_mem all mem
    exact ⟨b, related⟩
  · intro each
    exact forall₂_extend (List.forall₂_same.2 fun a _ => rfl : List.Forall₂ Eq as as)
      fun a mem b same => same ▸ each a mem

theorem Bytes.extract_of_part {data : Bytes} {start length low high : Nat} (inside : high ≤ length) :
    (data.extract start (start + length)).extract low high =
      data.extract (start + low) (start + high) := by
  rw [Array.extract_extract, Nat.min_eq_left (Nat.add_le_add_left inside start)]

/-- The section of a file of `size` bytes that is all of it at one address. -/
def Section.whole (address size : UInt32) : Section :=
  ⟨Array.replicate 8 0, size, address, size, 0, 0, 0, 0, 0, 0⟩

/-! ## The bytes of a stream -/

namespace Image

variable {data : Bytes} {i : Image}

/--
**A stream is a part of the metadata.** The root of a loaded image was read from
the metadata, and each of its streams ends there. The address of a stream is that
of the metadata and the offset of the stream, a sum that does not wrap. If the
first section that holds it is the one of the metadata, then so is its place in
the file, and the bytes there are those at the offset in the metadata.
-/
theorem stream_of_metadata (h : ofBytes data = .ok i) :
    ∃ start metadata, i.file.fileOffset i.cliHeader.metadata.rva = .ok start ∧
      metadataBytes i.file i.cliHeader = .ok metadata ∧ Root.read metadata = .ok i.root ∧
      ∀ s ∈ i.streams,
        i.cliHeader.metadata.rva.toNat + s.offset.toNat < 0x100000000 ∧ s.stop ≤ metadata.size ∧
        (i.file.headers.sections.holding? (i.cliHeader.metadata.rva + s.offset) =
            i.file.headers.sections.holding? i.cliHeader.metadata.rva →
          s.fileOffset = start + s.offset.toNat ∧ s.span.stop ≤ data.size ∧
          data.extract s.span.start s.span.stop = metadata.extract s.offset.toNat s.stop) := by
  have loaded := ofBytes_eq_ok.1 h
  obtain rfl := data_of_loaded loaded
  obtain ⟨metadata, cut, read⟩ := loaded.root
  obtain ⟨start, found, part⟩ := Except.bind_eq_ok.1 cut
  obtain ⟨-, rfl⟩ := Bytes.slice_eq_ok.1 part
  refine ⟨start, _, found, cut, read, fun s listed => ?_⟩
  obtain ⟨header, noWrap, -⟩ := mem_streams loaded listed
  refine ⟨noWrap, Root.stop_le_of_read read _ header, fun same => ?_⟩
  have place := fileOffset_of_one_section loaded found listed same
  refine ⟨place, inside_of_one_section loaded listed same, ?_⟩
  rw [Bytes.extract_of_part (stop_le_metadata loaded listed), Stream.span, place, Nat.add_assoc]
  rfl

/-- The two streams of the small image, the metadata and the only section. -/
theorem smallImage_streams :
    ∃ i, ofBytes smallImage = .ok i ∧ i.file.headers.sections.sections = [.whole 0x1000 539] ∧
      i.file.data.size = 539 ∧ i.cliHeader.metadata = ⟨0x11A0, 111⟩ ∧
      i.file.fileOffset 0x11A0 = .ok 416 ∧ i.root.streams.map StreamHeader.offset = [48, 104] ∧
      ∀ s ∈ i.streams,
        i.file.headers.sections.holding? (0x11A0 + s.offset) =
          i.file.headers.sections.holding? 0x11A0 :=
  exists_smallImage (by decide +kernel)

theorem stream_of_metadata_small :
    ∃ i metadata, ofBytes smallImage = .ok i ∧ metadataBytes i.file i.cliHeader = .ok metadata ∧
      i.file.fileOffset i.cliHeader.metadata.rva = .ok 416 ∧
      ∀ s ∈ i.streams, s.fileOffset = 416 + s.offset.toNat ∧
        smallImage.extract s.span.start s.span.stop = metadata.extract s.offset.toNat s.stop := by
  obtain ⟨i, loaded, -, -, directory, root, -, one⟩ := smallImage_streams
  obtain ⟨start, metadata, found, cut, -, all⟩ := stream_of_metadata loaded
  have address : i.cliHeader.metadata.rva = 0x11A0 := by rw [directory]
  rw [address] at found all
  obtain rfl : start = 416 := Except.ok.inj (found.symm.trans root)
  refine ⟨i, metadata, loaded, cut, address ▸ found, fun s listed => ?_⟩
  obtain ⟨-, -, bytes⟩ := all s listed
  obtain ⟨place, -, same⟩ := bytes (one s listed)
  exact ⟨place, same⟩

end Image

/-! ## Metadata that one section backs -/

/--
The section alone holds each address of a range, and has a byte of the file for it.
-/
structure File.Backs (f : File) (s : Section) (rva size : UInt32) : Prop where
  listed : s ∈ f.headers.sections.sections
  stored : s.rawSpan.stop ≤ f.data.size
  held : ∀ x, rva.toNat ≤ x → x < rva.toNat + size.toNat →
    s.virtualAddress.toNat ≤ x ∧ x < s.virtualAddress.toNat + s.virtualSize.toNat ∧
      x < s.virtualAddress.toNat + s.rawSize.toNat
  alone : ∀ x : UInt32, rva.toNat ≤ x.toNat → x.toNat < rva.toNat + size.toNat →
    ∀ s' ∈ f.headers.sections.sections, s'.Holds x → s' = s

namespace File.Backs

variable {f : File} {s : Section} {rva size : UInt32}

theorem fileOffset_eq (backed : f.Backs s rva size) {x : UInt32} (low : rva.toNat ≤ x.toNat)
    (high : x.toNat < rva.toNat + size.toNat) :
    f.fileOffset x = .ok (s.rawOffset.toNat + s.depth x) := by
  obtain ⟨above, below, inside⟩ := backed.held x.toNat low high
  have decides := SectionTable.holding?_of_alone backed.listed ⟨above, below⟩ (backed.alone x low high)
  have deep : s.depth x < s.rawSize.toNat := by rw [Section.depth]; omega
  have there : s.rawOffset.toNat + s.depth x < f.data.size :=
    Nat.lt_of_lt_of_le (SectionTable.mem_rawSpan deep).2 backed.stored
  exact File.fileOffset_eq_ok.2 ⟨SectionTable.fileOffset_of_holding decides deep, there⟩

theorem fileOffset_add (backed : f.Backs s rva size) {d : UInt32} {start : Nat}
    (found : f.fileOffset rva = .ok start) (inside : d.toNat < size.toNat)
    (fits : rva.toNat + d.toNat < 0x100000000) : f.fileOffset (rva + d) = .ok (start + d.toNat) := by
  have sum := toNat_add_of_fits fits
  have first := backed.fileOffset_eq (Nat.le_refl _) (by omega)
  obtain rfl : start = s.rawOffset.toNat + s.depth rva := Except.ok.inj (found.symm.trans first)
  obtain ⟨above, -⟩ := backed.held rva.toNat (Nat.le_refl _) (by omega)
  have deeper : s.depth (rva + d) = s.depth rva + d.toNat := by
    rw [Section.depth, Section.depth, sum]
    omega
  rw [backed.fileOffset_eq (by omega) (by omega), deeper, Nat.add_assoc]

theorem sliceAt_eq (backed : f.Backs s rva size) (nonempty : 0 < size.toNat) :
    ∃ start, f.fileOffset rva = .ok start ∧ start + size.toNat ≤ f.data.size ∧
      f.sliceAt rva size.toNat = .ok (f.data.extract start (start + size.toNat)) := by
  have found := backed.fileOffset_eq (Nat.le_refl _) (by omega)
  obtain ⟨above, -, inside⟩ := backed.held (rva.toNat + size.toNat - 1) (by omega) (by omega)
  obtain ⟨low, -⟩ := backed.held rva.toNat (Nat.le_refl _) (by omega)
  have stored : s.rawOffset.toNat + s.rawSize.toNat ≤ f.data.size := backed.stored
  have fits : s.rawOffset.toNat + s.depth rva + size.toNat ≤ f.data.size := by
    rw [Section.depth]
    omega
  exact ⟨_, found, fits, Except.bind_eq_ok.2 ⟨_, found, Bytes.slice_eq_ok.2 ⟨fits, rfl⟩⟩⟩

end File.Backs

/-- The only section of a file backs each part of it that lies in its raw data. -/
theorem File.backs_of_only {f : File} {s : Section} {rva size : UInt32}
    (only : f.headers.sections.sections = [s]) (stored : s.rawSpan.stop ≤ f.data.size)
    (low : s.virtualAddress.toNat ≤ rva.toNat)
    (high : rva.toNat + size.toNat ≤
      s.virtualAddress.toNat + min s.virtualSize.toNat s.rawSize.toNat) : f.Backs s rva size where
  listed := by simp [only]
  stored := stored
  held x above below := by omega
  alone x _ _ s' listed _ := by simpa [only] using listed

/-- A stream that does not begin in front of the end of the metadata is empty and stands there. -/
theorem StreamHeader.empty_of_stop_le {h : StreamHeader} {size : UInt32} (bound : h.stop ≤ size.toNat) :
    h.offset.toNat < size.toNat ∨ h.offset = size ∧ h.size = 0 := by
  have sum : h.offset.toNat + h.size.toNat ≤ size.toNat := bound
  by_cases inside : h.offset.toNat < size.toNat
  · exact .inl inside
  · refine .inr ⟨UInt32.toNat_inj.1 (by omega), UInt32.toNat_inj.1 ?_⟩
    rw [UInt32.toNat_zero]
    omega

/--
**The streams of metadata that one section backs.** Such metadata can be cut out
of the file. If its root is read, each stream begins in front of the end of the
metadata, or is empty and stands at the end. One that begins in front is placed as
far behind the metadata in the file as the root says, provided its address is one
at all. And all of them are placed exactly if each has an address and the address
behind the metadata is in the file, should a stream stand at the end.
-/
theorem Root.place_of_backed {f : File} {s : Section} {rva size : UInt32}
    (backed : f.Backs s rva size) :
    (0 < size.toNat → ∃ start, f.fileOffset rva = .ok start ∧
      f.sliceAt rva size.toNat = .ok (f.data.extract start (start + size.toNat))) ∧
    ∀ start metadata r, f.fileOffset rva = .ok start → f.sliceAt rva size.toNat = .ok metadata →
      Root.read metadata = .ok r →
      (∀ h ∈ r.streams, h.offset.toNat < size.toNat ∨ h.offset = size ∧ h.size = 0) ∧
      (∀ h ∈ r.streams, h.offset.toNat < size.toNat → rva.toNat + h.offset.toNat < 0x100000000 →
        Stream.place rva f.fileOffset h = .ok ⟨h, start + h.offset.toNat⟩) ∧
      ((∃ streams, (r.place rva f.fileOffset).toExcept = .ok streams) ↔
        ∀ h ∈ r.streams, rva.toNat + h.offset.toNat < 0x100000000 ∧
          (h.offset = size → ∃ offset, f.fileOffset (rva + size) = .ok offset)) := by
  constructor
  · intro nonempty
    obtain ⟨start, found, -, cut⟩ := backed.sliceAt_eq nonempty
    exact ⟨start, found, cut⟩
  intro start metadata r found cut read
  have ends : ∀ h ∈ r.streams, h.offset.toNat < size.toNat ∨ h.offset = size ∧ h.size = 0 := by
    intro h listed
    have bound := Root.stop_le_of_read read h listed
    rw [File.size_of_sliceAt cut] at bound
    exact StreamHeader.empty_of_stop_le bound
  refine ⟨ends, fun h listed inside fits => ?_, ?_⟩
  · exact Stream.place_eq_ok.2 ⟨fits, _, backed.fileOffset_add found inside fits, rfl⟩
  simp only [Root.place_eq_ok, exists_forall₂, Stream.place_eq_ok]
  constructor
  · intro placed h listed
    obtain ⟨_, fits, offset, there, -⟩ := placed h listed
    exact ⟨fits, fun last => ⟨offset, last ▸ there⟩⟩
  · intro each h listed
    obtain ⟨fits, last⟩ := each h listed
    rcases ends h listed with inside | ⟨behind, -⟩
    · exact ⟨_, fits, _, backed.fileOffset_add found inside fits, rfl⟩
    · obtain ⟨offset, there⟩ := last behind
      exact ⟨_, fits, offset, behind ▸ there, rfl⟩

theorem Root.place_of_backed_small :
    ∃ i, Image.ofBytes smallImage = .ok i ∧ i.file.Backs (.whole 0x1000 539) 0x11A0 111 ∧
      i.root.streams.length = 2 ∧
      ∀ h ∈ i.root.streams,
        Stream.place 0x11A0 i.file.fileOffset h = .ok ⟨h, 416 + h.offset.toNat⟩ := by
  obtain ⟨i, loaded, only, length, directory, root, offsets, -⟩ := Image.smallImage_streams
  have stored : (Section.whole 0x1000 539).rawSpan.stop ≤ i.file.data.size := by
    simp [length, Section.whole, Section.rawSpan]
  have backed : i.file.Backs (.whole 0x1000 539) 0x11A0 111 :=
    File.backs_of_only only stored (by decide) (by decide)
  obtain ⟨part, cut, read⟩ := (Image.ofBytes_eq_ok.1 loaded).root
  rw [Image.metadataBytes, directory] at cut
  obtain ⟨-, streams⟩ := Root.place_of_backed backed
  obtain ⟨-, placed, -⟩ := streams 416 part i.root root cut read
  have two : i.root.streams.length = 2 := by simpa using congrArg List.length offsets
  refine ⟨i, loaded, backed, two, fun h listed => ?_⟩
  have known : h.offset ∈ [48, 104] := offsets ▸ List.mem_map_of_mem listed
  simp only [List.mem_cons, List.not_mem_nil, or_false] at known
  rcases known with start | start
  · exact placed h listed (by rw [start]; decide) (by rw [start]; decide)
  · exact placed h listed (by rw [start]; decide) (by rw [start]; decide)

/-! ## A stream at the end of the metadata -/

/--
An image of one section, which is the whole file at address `base`. The metadata
takes the end of it, and at the very end stands the second stream of the root,
which is empty.
-/
def emptyStreamImage (base : UInt32) : Bytes :=
  let half := Bytes.leBytes 2
  let word := Bytes.leBytes 4
  let zeros := fun n => List.replicate n 0
  -- the stub header up to its last field, the signature and the file header
  (half 0x5A4D ++ zeros 58 ++ word 64 ++
    [0x50, 0x45, 0, 0] ++ half 0x14C ++ half 1 ++ zeros 12 ++ half 216 ++ half 0 ++
  -- the optional header; of its fifteen directories only the last points anywhere
    half 0x10B ++ zeros 90 ++ word 15 ++ zeros 112 ++ word (base.toNat + 344) ++ word 72 ++
  -- the section and the CLI header
    zeros 8 ++ word 496 ++ word base.toNat ++ word 496 ++ zeros 20 ++
    word 72 ++ zeros 4 ++ word (base.toNat + 416) ++ word 80 ++ zeros 56 ++
  -- the metadata root and its two streams
    word 0x424A5342 ++ zeros 8 ++ word 4 ++ [0x76, 0, 0, 0] ++ half 0 ++ half 2 ++
    word 52 ++ word 28 ++ [0x23, 0x7E, 0, 0] ++
    word 80 ++ word 0 ++ [0x23, 0x47, 0x55, 0x49, 0x44, 0, 0, 0] ++
  -- an empty table of methods
    word 0 ++ [2, 0, 0, 1] ++ word 0x40 ++ zeros 12 ++ word 0).toArray

/-- A file and the root of the metadata that a range of addresses has in it. -/
def rootAt (data : Bytes) (rva size : UInt32) : Except Error (File × Root) := do
  let f ← File.ofBytes data
  return (f, ← Root.read (← f.sliceAt rva size.toNat))

theorem emptyStreamImage_of_check {base rva : UInt32} {e : Error} (low : base.toNat ≤ rva.toNat)
    (high : rva.toNat + 80 ≤ base.toNat + 496)
    (check : (rootAt (emptyStreamImage base) rva 80).toOption.any (fun (f, r) =>
      f.headers.sections.sections = [.whole base 496] ∧ f.data.size = 496 ∧
        (r.place rva f.fileOffset).toExcept = .error e) = true) :
    ∃ f metadata r, File.ofBytes (emptyStreamImage base) = .ok f ∧
      f.Backs (.whole base 496) rva 80 ∧ f.sliceAt rva 80 = .ok metadata ∧
      Root.read metadata = .ok r ∧ (r.place rva f.fileOffset).toExcept = .error e := by
  obtain ⟨⟨f, r⟩, found, only, length, unplaced⟩ := Except.exists_of_check check
  obtain ⟨f', opened, found⟩ := Except.bind_eq_ok.1 found
  obtain ⟨metadata, cut, found⟩ := Except.bind_eq_ok.1 found
  obtain ⟨r', read, answer⟩ := Except.bind_eq_ok.1 found
  cases answer
  have stored : (Section.whole base 496).rawSpan.stop ≤ f.data.size := by
    simp [length, Section.whole, Section.rawSpan]
  exact ⟨f, metadata, r, opened, File.backs_of_only only stored low high, cut, read, unplaced⟩

/--
One section backs the metadata and the root is read, but a stream is not placed. At
the first address it is the empty one. At the second the metadata crosses the end
of the address space, and it is the stream of tables.
-/
theorem emptyStreamImage_unplaced :
    (∃ f metadata r, File.ofBytes (emptyStreamImage 0x1000) = .ok f ∧
      f.Backs (.whole 0x1000 496) 0x11A0 80 ∧ f.sliceAt 0x11A0 80 = .ok metadata ∧
      Root.read metadata = .ok r ∧
      (r.place 0x11A0 f.fileOffset).toExcept = .error (.unmappedRva 0x11F0)) ∧
    ∃ f metadata r, File.ofBytes (emptyStreamImage 0xFFFFFE2C) = .ok f ∧
      f.Backs (.whole 0xFFFFFE2C 496) 0xFFFFFFCC 80 ∧ f.sliceAt 0xFFFFFFCC 80 = .ok metadata ∧
      Root.read metadata = .ok r ∧
      (r.place 0xFFFFFFCC f.fileOffset).toExcept =
        .error (.malformed (.streamRvaOverflow "#~" 0xFFFFFFCC 52)) :=
  ⟨emptyStreamImage_of_check (by decide) (by decide) (by decide +kernel),
    emptyStreamImage_of_check (by decide) (by decide) (by decide +kernel)⟩

end ManagedImage
