/-
The headers of an image, read on the machine: those of the file, the CLI header
and the metadata root with its list of streams. Most of them are fields one
behind the other and have their readings from these. The others test a sum or a
product against what is left, copy a part into an array, cut a name out of a
window or look for an address among the sections.
-/
import ManagedImage.Image
import ManagedImage.Proofs.HeaderReads
import ManagedImage.Proofs.Loading
import ManagedImage.Proofs.Machine.Readings

namespace ManagedImage

/-! ## Sixteen directories -/

open Reader in
theorem OptionalHeader.length_of_readDirectories {size : Nat} {claimed : UInt32} {c c' : Cursor}
    {directories : List DataDirectory} (h : readDirectories size claimed c = .ok directories c') :
    directories.length = 16 := by
  obtain ⟨_, _, -, h⟩ := bind_eq_ok.1 h
  split at h
  · cases h
  · obtain ⟨stored, _, read, h⟩ := bind_eq_ok.1 h
    obtain ⟨rfl, -⟩ := pure_eq_ok.1 h
    have few : min claimed.toNat DataDirectory.limit ≤ 16 := Nat.min_le_right ..
    rw [List.length_append, List.length_replicate, length_of_times read, DataDirectory.limit]
    rw [DataDirectory.limit] at few
    omega

open Reader in
theorem OptionalHeader.length_of_readFields {start size : Nat} {c c' : Cursor} {header : OptionalHeader}
    (h : readFields start size c = .ok header c') : header.directories.length = 16 := by
  obtain ⟨magic, _, -, h⟩ := bind_eq_ok.1 h
  dsimp only at h
  split at h
  · cases h
  · iterate 7 obtain ⟨_, _, -, h⟩ := bind_eq_ok.1 h
    -- The layouts differ in two fields in front of the directories.
    split at h <;>
      · iterate 16 obtain ⟨_, _, -, h⟩ := bind_eq_ok.1 h
        obtain ⟨directories, _, read, h⟩ := bind_eq_ok.1 h
        obtain ⟨rfl, -⟩ := pure_eq_ok.1 h
        exact length_of_readDirectories read

namespace Machine

open Programmed (program faithful keeps)

variable {α β : Type}

/-! ## The headers of the file -/

/-- The stub header: its bytes first, then the two fields within them. -/
def stubHeader : Reading StubHeader := do
  let start ← program Reader.position
  let header ← program (Reader.take StubHeader.size)
  let magic ← (program Reader.u16).runAt header 0
  if magic ≠ StubHeader.expectedMagic then throw (.refused (.malformed (.stubMagic start magic)))
  let imageOffset ← (program (Reader.seek 60 >>= fun _ => Reader.u32)).runAt header 2
  return ⟨magic, imageOffset⟩

theorem stubHeader_faithful {c : Cursor} (sound : c.Addressable) :
    stubHeader c = ended (StubHeader.read c) := by
  refine bind_program sound fun {start c₁} there sound₁ => ?_
  refine bind_program sound₁ fun {header c₂} taken sound₂ => ?_
  have whole := addressable_of_take taken sound₁
  have long : header.size = 128 := size_of_take taken
  have magic : (program Reader.u16).runAt header 0 = .ok (UInt16.ofNat (header.leNat 0 2)) :=
    runAt_of_ok whole (Reader.map_eq_ok.2 ⟨_, Reader.nat_of_fits (by simp only; omega), rfl⟩)
  have offset : (program (Reader.seek 60 >>= fun _ => Reader.u32)).runAt header 2 =
      .ok (UInt32.ofNat (header.leNat 60 4)) := by
    have there : Reader.seek 60 ⟨header, 2⟩ = .ok () ⟨header, 60⟩ := if_pos (by simp only; omega)
    have word : Reader.u32 ⟨header, 60⟩ = .ok (UInt32.ofNat (header.leNat 60 4)) ⟨header, 64⟩ :=
      Reader.map_eq_ok.2 ⟨_, Reader.nat_of_fits (by simp only; omega), rfl⟩
    exact runAt_of_ok ⟨by simp only; omega, whole.short⟩ ((Reader.bind_of_ok there).trans word)
  rw [lift_bind magic]
  dsimp only
  by_cases wrong : UInt16.ofNat (header.leNat 0 2) ≠ StubHeader.expectedMagic
  · rw [if_pos wrong, if_pos wrong]
    rfl
  · rw [if_neg wrong, if_neg wrong, lift_bind offset]
    rfl

instance : Programmed StubHeader.read where
  program := stubHeader
  faithful := stubHeader_faithful
  keeps := addressable_of_read

instance : Programmed readImageSignature := by delta readImageSignature; infer_instance
instance : Programmed FileHeader.read := by delta FileHeader.read; infer_instance
instance : Programmed DataDirectory.read := by delta DataDirectory.read; infer_instance

/-- The size of the directories that are stored is a product. -/
instance (size : Nat) (claimed : UInt32) : Programmed (OptionalHeader.readDirectories size claimed) :=
  have few : min claimed.toNat DataDirectory.limit ≤ 16 := Nat.min_le_right ..
  computed (mul 64 (min claimed.toNat DataDirectory.limit) 8) (mul_eq (by omega)) fun needed => do
    if (← get).remaining < needed then Reader.malformed (.directoriesCutOff size claimed)
    let stored := min claimed.toNat DataDirectory.limit
    let directories ← Reader.times DataDirectory.read stored
    return directories ++ List.replicate (DataDirectory.limit - stored) DataDirectory.none

set_option synthInstance.maxSize 1000 in
instance (start size : Nat) : Programmed (OptionalHeader.readFields start size) := by
  delta OptionalHeader.readFields; dsimp only; infer_instance

instance (size : Nat) : Programmed (OptionalHeader.read size) := by
  delta OptionalHeader.read; infer_instance

/-- The name of a section is copied into an array. -/
instance : Programmed Section.read := by delta Section.read; exact copied _ _

/-- The size of a table of sections is a product. -/
instance (count : UInt16) : Programmed (SectionTable.read count.toNat) :=
  have few := count.toNat_lt
  computed (mul 64 count.toNat Section.size) (mul_eq (by simp only [Section.size]; omega))
    fun needed => (do
      Reader.ensure needed
      return ⟨← Reader.times Section.read count.toNat⟩ : Reader SectionTable)

instance : Programmed Headers.read := by delta Headers.read; infer_instance

/-- Opens a file. -/
def openFile (data : Bytes) : Run File := do
  if data.isEmpty then refuse .empty
  return ⟨data, ← (program Headers.read).runAt data 0⟩

theorem openFile_eq {data : Bytes} (short : data.size < 2 ^ 63) :
    openFile data = Run.of (File.ofBytes data) := by
  rw [openFile, File.ofBytes]
  split
  · rfl
  · refine Run.bind_of (runAt_program (Cursor.addressable_start short)) fun _ _ => rfl

/-! ## Addresses -/

/-- Whether a section holds an address. Where its end is no address, it has no end. -/
def holds (s : Section) (rva : UInt32) : Bool :=
  match checked 32 (s.virtualAddress.toNat + s.virtualSize.toNat) with
  | some stop => s.virtualAddress.toNat ≤ rva.toNat ∧ rva.toNat < stop
  | none => s.virtualAddress.toNat ≤ rva.toNat

theorem holds_eq (s : Section) (rva : UInt32) : holds s rva = decide (s.Holds rva) := by
  have address := rva.toNat_lt
  unfold holds checked
  by_cases fits : s.virtualAddress.toNat + s.virtualSize.toNat < 2 ^ 32
  · rw [if_pos fits]
    rfl
  · rw [if_neg fits]
    exact decide_eq_decide.2 ⟨fun low => ⟨low, by omega⟩, And.left⟩

/-- Where the byte of an address lies in the file. For the journal, an address in a tail is told with
the name of its section. -/
def sectionOffset (t : SectionTable) (rva : UInt32) : Run Nat :=
  match t.sections.find? (holds · rva) with
  | none => refuse (.unmappedRva rva)
  | some s => do
    let depth ← sub rva.toNat s.virtualAddress.toNat
    if s.rawSize.toNat ≤ depth then
      let _name ← cut s.rawName 0 s.rawName.upToNul.size
      refuse (.unmappedRva rva)
    else add 64 s.rawOffset.toNat depth

theorem sectionOffset_eq (t : SectionTable) (rva : UInt32) :
    sectionOffset t rva = Run.of (t.fileOffset rva) := by
  have same : t.sections.find? (holds · rva) = t.holding? rva := by
    simp only [holds_eq, SectionTable.holding?]
  rw [sectionOffset, SectionTable.fileOffset, same]
  cases found : t.holding? rva with
  | none => rfl
  | some s =>
    have held : s.Holds rva := by simpa using List.find?_some found
    have address := rva.toNat_lt
    have start := s.rawOffset.toNat_lt
    dsimp only
    rw [sub_eq held.1, ok_bind, ← Section.depth]
    by_cases backed : s.depth rva < s.rawSize.toNat
    · have depth : s.depth rva ≤ rva.toNat := Nat.sub_le ..
      rw [if_neg (Nat.not_le.2 backed), if_pos backed]
      exact add_eq (by omega)
    · rw [if_pos (Nat.le_of_not_lt backed), if_neg backed,
        cut_eq (Nat.zero_le _) (Bytes.size_upToNul_le _)]
      rfl

/-- Where the byte of an address lies, if that is not behind the end. -/
def fileOffset (f : File) (rva : UInt32) : Run Nat := do
  let offset ← sectionOffset f.headers.sections rva
  if f.data.size ≤ offset then refuse (.outOfBounds offset 1 f.data.size)
  return offset

theorem fileOffset_eq (f : File) (rva : UInt32) : fileOffset f rva = Run.of (f.fileOffset rva) := by
  refine Run.bind_of (sectionOffset_eq _ _) fun offset _ => ?_
  by_cases inside : offset < f.data.size
  · rw [if_neg (Nat.not_le.2 inside), if_pos inside]
    rfl
  · rw [if_pos (Nat.le_of_not_lt inside), if_neg inside]
    rfl

/-- The `length` bytes at an address. -/
def sliceAt (f : File) (rva : UInt32) (length : Nat) : Run Bytes := do
  slice f.data (← fileOffset f rva) length

theorem sliceAt_eq {f : File} (short : f.data.size < 2 ^ 63) (rva : UInt32) (length : Nat) :
    sliceAt f rva length = Run.of (f.sliceAt rva length) :=
  Run.bind_of (fileOffset_eq f rva) fun _ _ => slice_eq short _ _

/-! ## The CLI header -/

instance : Programmed CliHeader.read := by delta CliHeader.read; dsimp only; infer_instance

/-- The CLI header of a file. Its directory is an item of the array of all of them. -/
def cliHeader (f : File) : Run CliHeader := do
  let directory ← fetch f.headers.optional.directories DataDirectory.cliHeaderIndex
  if directory.isEmpty then refuse .notSupported
  let header ← sliceAt f directory.rva CliHeader.size
  (program CliHeader.read).runAt header 0

theorem addressable_of_slice {data part : Bytes} {offset length : Nat} (short : data.size < 2 ^ 63)
    (found : data.slice offset length = .ok part) : (Cursor.start part).Addressable := by
  obtain ⟨-, rfl⟩ := Bytes.slice_eq_ok.1 found
  refine Cursor.addressable_start ?_
  rw [Array.size_extract]
  omega

theorem addressable_of_sliceAt {f : File} {part : Bytes} {rva : UInt32} {length : Nat}
    (short : f.data.size < 2 ^ 63) (found : f.sliceAt rva length = .ok part) :
    (Cursor.start part).Addressable := by
  obtain ⟨offset, -, found⟩ := Except.bind_eq_ok.1 found
  exact addressable_of_slice short found

theorem length_directories {data : Bytes} {f : File} (opened : File.ofBytes data = .ok f) :
    f.headers.optional.directories.length = 16 := by
  obtain ⟨-, -, read⟩ := File.ofBytes_eq_ok.1 opened
  obtain ⟨c', read⟩ := Reader.run_eq_ok.1 read
  obtain ⟨stub, _, -, read⟩ := Reader.bind_eq_ok.1 read
  obtain ⟨_, _, -, read⟩ := Reader.bind_eq_ok.1 read
  obtain ⟨_, _, -, read⟩ := Reader.bind_eq_ok.1 read
  obtain ⟨file, _, -, read⟩ := Reader.bind_eq_ok.1 read
  obtain ⟨optional, _, fields, read⟩ := Reader.bind_eq_ok.1 read
  obtain ⟨sections, _, -, read⟩ := Reader.bind_eq_ok.1 read
  obtain ⟨same, -⟩ := Reader.pure_eq_ok.1 read
  rw [← same]
  obtain ⟨start, _, -, fields⟩ := Reader.bind_eq_ok.1 fields
  obtain ⟨header, _, -, fields⟩ := Reader.bind_eq_ok.1 fields
  obtain ⟨_, fields⟩ := Reader.run_eq_ok.1 (Reader.ofExcept_eq_ok.1 fields).1
  exact OptionalHeader.length_of_readFields fields

theorem cliHeader_eq {data : Bytes} {f : File} (opened : File.ofBytes data = .ok f)
    (short : f.data.size < 2 ^ 63) : cliHeader f = Run.of (Image.readCliHeader f) := by
  have many := length_directories opened
  obtain ⟨directory, there⟩ :
      ∃ d, f.headers.optional.directories[DataDirectory.cliHeaderIndex]? = some d :=
    ⟨_, List.getElem?_eq_getElem (by rw [DataDirectory.cliHeaderIndex, many]; decide)⟩
  rw [cliHeader, Image.readCliHeader, File.cliDirectory?, OptionalHeader.cliDirectory?,
    OptionalHeader.directory?, fetch_eq there, ok_bind, there]
  by_cases empty : directory.isEmpty = true
  · rw [if_pos empty, Option.filter_some, if_neg (by simp [empty])]
    rfl
  · rw [if_neg empty, Option.filter_some, if_pos (by simpa using empty)]
    refine Run.bind_of (sliceAt_eq short _ _) fun header found => ?_
    exact runAt_program (addressable_of_sliceAt short found)

end Machine

end ManagedImage
