/-
Where the headers of a file stand. They are read one behind the other and no position is
written down; what follows is at which position each field is found, and what of the file
decides whether the headers are read at all (`Headers.run_read_eq_ok`).

The optional header is read within its declared size. What it holds behind its directories
is not looked at, but the section table begins only behind it. Nothing keeps the image
from beginning inside the stub header, so the two may share bytes.

Main statement: the headers are read exactly if they stand in the file, with their
directories, base and sections at positions that the file states (`Headers.read_by_position`).
-/
import ManagedImage.Proofs.FixedLayouts
import ManagedImage.Proofs.WrittenForms
import ManagedImage.Pe.File

namespace ManagedImage

open Reader

/-! ## The parts of the headers -/

/-- The fields of a file header at a position. -/
def FileHeader.statedAt (data : Bytes) (pos : Nat) : FileHeader where
  machine := UInt16.ofNat (data.leNat pos 2)
  sectionCount := UInt16.ofNat (data.leNat (pos + 2) 2)
  timestamp := UInt32.ofNat (data.leNat (pos + 4) 4)
  symbolTableOffset := UInt32.ofNat (data.leNat (pos + 8) 4)
  symbolCount := UInt32.ofNat (data.leNat (pos + 12) 4)
  optionalHeaderSize := UInt16.ofNat (data.leNat (pos + 16) 2)
  characteristics := UInt16.ofNat (data.leNat (pos + 18) 2)

instance : FixedLayout FileHeader.read 20 FileHeader.statedAt := by
  unfold FileHeader.read
  exact FixedLayout.of_eq rfl fun _ _ => rfl

/-- The fields of an entry of the section table at a position. -/
def Section.statedAt (data : Bytes) (pos : Nat) : Section where
  rawName := data.extract pos (pos + 8)
  virtualSize := UInt32.ofNat (data.leNat (pos + 8) 4)
  virtualAddress := UInt32.ofNat (data.leNat (pos + 12) 4)
  rawSize := UInt32.ofNat (data.leNat (pos + 16) 4)
  rawOffset := UInt32.ofNat (data.leNat (pos + 20) 4)
  relocationsOffset := UInt32.ofNat (data.leNat (pos + 24) 4)
  lineNumbersOffset := UInt32.ofNat (data.leNat (pos + 28) 4)
  relocationCount := UInt16.ofNat (data.leNat (pos + 32) 2)
  lineNumberCount := UInt16.ofNat (data.leNat (pos + 34) 2)
  characteristics := UInt32.ofNat (data.leNat (pos + 36) 4)

instance : FixedLayout Section.read Section.size Section.statedAt := by
  unfold Section.read
  exact FixedLayout.of_eq rfl fun _ _ => rfl

/-- The directory at a position. -/
def DataDirectory.statedAt (data : Bytes) (pos : Nat) : DataDirectory where
  rva := UInt32.ofNat (data.leNat pos 4)
  size := UInt32.ofNat (data.leNat (pos + 4) 4)

instance : FixedLayout DataDirectory.read 8 DataDirectory.statedAt := by
  unfold DataDirectory.read
  exact FixedLayout.of_eq rfl fun _ _ => rfl

namespace OptionalHeader

/-- The magic number of a layout. -/
def magicOf (wide : Bool) : UInt16 := if wide then wideMagic else narrowMagic

/-- The size of the fields in front of the directories. -/
def fixedSize (wide : Bool) : Nat := if wide then 112 else 96

/-- The fields in front of the directories of a header at a position. -/
def fixedAt (wide : Bool) (data : Bytes) (pos : Nat) : OptionalHeader where
  magic := UInt16.ofNat (data.leNat pos 2)
  linkerMajor := UInt8.ofNat (data.leNat (pos + 2) 1)
  linkerMinor := UInt8.ofNat (data.leNat (pos + 3) 1)
  codeSize := UInt32.ofNat (data.leNat (pos + 4) 4)
  initializedDataSize := UInt32.ofNat (data.leNat (pos + 8) 4)
  uninitializedDataSize := UInt32.ofNat (data.leNat (pos + 12) 4)
  entryPoint := UInt32.ofNat (data.leNat (pos + 16) 4)
  codeBase := UInt32.ofNat (data.leNat (pos + 20) 4)
  dataBase := if wide then none else some (UInt32.ofNat (data.leNat (pos + 24) 4))
  imageBase := UInt64.ofNat (if wide then data.leNat (pos + 24) 8 else data.leNat (pos + 28) 4)
  sectionAlignment := UInt32.ofNat (data.leNat (pos + 32) 4)
  fileAlignment := UInt32.ofNat (data.leNat (pos + 36) 4)
  subsystemMajor := UInt16.ofNat (data.leNat (pos + 48) 2)
  subsystemMinor := UInt16.ofNat (data.leNat (pos + 50) 2)
  imageSize := UInt32.ofNat (data.leNat (pos + 56) 4)
  headersSize := UInt32.ofNat (data.leNat (pos + 60) 4)
  checksum := UInt32.ofNat (data.leNat (pos + 64) 4)
  subsystem := UInt16.ofNat (data.leNat (pos + 68) 2)
  libraryCharacteristics := UInt16.ofNat (data.leNat (pos + 70) 2)
  directoryCount := UInt32.ofNat (data.leNat (pos + if wide then 108 else 92) 4)
  directories := []

/-- What is read in front of the directories of a header whose layout is known. -/
def readFixed (wide : Bool) : Reader OptionalHeader := do
  let magic ← Reader.u16
  let linkerMajor ← Reader.u8
  let linkerMinor ← Reader.u8
  let codeSize ← Reader.u32
  let initializedDataSize ← Reader.u32
  let uninitializedDataSize ← Reader.u32
  let entryPoint ← Reader.u32
  let codeBase ← Reader.u32
  let dataBase ← if wide then pure none else some <$> Reader.u32
  let imageBase ← if wide then Reader.u64 else (·.toUInt64) <$> Reader.u32
  let sectionAlignment ← Reader.u32
  let fileAlignment ← Reader.u32
  Reader.advance 8
  let subsystemMajor ← Reader.u16
  let subsystemMinor ← Reader.u16
  Reader.advance 4
  let imageSize ← Reader.u32
  let headersSize ← Reader.u32
  let checksum ← Reader.u32
  let subsystem ← Reader.u16
  let libraryCharacteristics ← Reader.u16
  Reader.advance (if wide then 32 else 16)
  Reader.advance 4
  let directoryCount ← Reader.u32
  return { magic, linkerMajor, linkerMinor, codeSize, initializedDataSize, uninitializedDataSize,
           entryPoint, codeBase, dataBase, imageBase, sectionAlignment, fileAlignment,
           subsystemMajor, subsystemMinor, imageSize, headersSize, checksum, subsystem,
           libraryCharacteristics, directoryCount, directories := [] }

theorem toUInt64_ofNat_leNat (data : Bytes) (pos : Nat) :
    (UInt32.ofNat (data.leNat pos 4)).toUInt64 = UInt64.ofNat (data.leNat pos 4) := by
  have small : data.leNat pos 4 < 2 ^ 32 := data.leNat_lt pos 4
  have wide : data.leNat pos 4 < 2 ^ 64 := Nat.lt_trans small (by decide)
  apply UInt64.toNat_inj.1
  rw [UInt32.toNat_toUInt64, UInt32.toNat_ofNat_of_lt' small, UInt64.toNat_ofNat_of_lt' wide]

instance (wide : Bool) : FixedLayout (readFixed wide) (fixedSize wide) (fixedAt wide) := by
  unfold readFixed
  cases wide
  · simp only [Bool.false_eq_true, if_false]
    refine FixedLayout.of_eq rfl fun data pos => ?_
    simp only [toUInt64_ofNat_leNat]
    rfl
  · simp only [if_true]
    exact FixedLayout.of_eq rfl fun _ _ => rfl

/-- A header that is followed by its directories. -/
def withDirectories (size : Nat) (h : OptionalHeader) : Reader OptionalHeader :=
  return { h with directories := ← readDirectories size h.directoryCount }

/-- The magic number decides between the layouts. -/
theorem readFields_eq_ok {start size : Nat} {data : Bytes} {h : OptionalHeader} {c' : Cursor} :
    readFields start size ⟨data, 0⟩ = .ok h c' ↔
      ∃ wide, UInt16.ofNat (data.leNat 0 2) = magicOf wide ∧
        (readFixed wide >>= withDirectories size) ⟨data, 0⟩ = .ok h c' := by
  unfold readFields readFixed
  simp only [bind_assoc, FixedLayout.bind_eq_ok (r := u16) (Nat.zero_le data.size)]
  generalize UInt16.ofNat (data.leNat 0 2) = magic
  by_cases unknown : magic ≠ narrowMagic ∧ magic ≠ wideMagic
  · rw [if_pos unknown]
    constructor
    · rintro ⟨-, ⟨⟩⟩
    · rintro ⟨wide, rfl, -⟩
      cases wide
      · exact absurd rfl unknown.1
      · exact absurd rfl unknown.2
  · obtain ⟨wide, rfl⟩ : ∃ wide, magic = magicOf wide := by
      by_cases narrow : magic = narrowMagic
      · exact ⟨false, narrow⟩
      · exact ⟨true, Decidable.not_not.1 fun other => unknown ⟨narrow, other⟩⟩
    have only : ∀ wide', magicOf wide = magicOf wide' ↔ wide' = wide := by revert wide; decide
    have isWide : decide (magicOf wide = wideMagic) = wide := by revert wide; decide
    rw [if_neg unknown]
    simp only [only, exists_eq_left, isWide]
    cases wide <;>
      simp only [withDirectories, bind_assoc, pure_bind, if_true, Bool.false_eq_true, if_false]

/-- The directories at a position, of which so many are stored; the others are empty. -/
def directoriesAt (data : Bytes) (pos stored : Nat) : List DataDirectory :=
  (List.range DataDirectory.limit).map fun k =>
    if k < stored then DataDirectory.statedAt data (pos + k * 8) else .none

/-- How many of the directories that a header claims are stored. -/
def stored (h : OptionalHeader) : Nat := min h.directoryCount.toNat DataDirectory.limit

theorem directoriesAt_eq (data : Bytes) (pos : Nat) {stored : Nat}
    (most : stored ≤ DataDirectory.limit) :
    directoriesAt data pos stored =
      ((List.range stored).map fun k => DataDirectory.statedAt data (pos + k * 8)) ++
        List.replicate (DataDirectory.limit - stored) .none := by
  obtain ⟨rest, total⟩ := Nat.exists_eq_add_of_le most
  rw [directoriesAt, total, List.range_add, List.map_append, Nat.add_sub_cancel_left, List.map_map]
  congr 1
  · exact List.map_congr_left fun k less => if_pos (List.mem_range.1 less)
  · refine List.eq_replicate_iff.2 ⟨by rw [List.length_map, List.length_range], fun d mem => ?_⟩
    obtain ⟨k, -, rfl⟩ := List.mem_map.1 mem
    exact if_neg (Nat.not_lt.2 (Nat.le_add_right ..))

instance (size : Nat) (claimed : UInt32) :
    FixedLayout (readDirectories size claimed) (min claimed.toNat DataDirectory.limit * 8)
      (fun data pos => directoriesAt data pos (min claimed.toNat DataDirectory.limit)) where
  eq_ok {data pos v c'} inside := by
    rw [readDirectories, bind_of_ok (get_ok _)]
    by_cases lacks : Cursor.remaining ⟨data, pos⟩ < min claimed.toNat DataDirectory.limit * 8
    · rw [if_pos lacks, ← FixedLayout.le_remaining_iff inside]
      exact ⟨nofun, fun h => absurd h.1 (Nat.not_le.2 lacks)⟩
    · have layout : FixedLayout (do
            let directories ← times DataDirectory.read (min claimed.toNat DataDirectory.limit)
            return directories ++ List.replicate
              (DataDirectory.limit - min claimed.toNat DataDirectory.limit) DataDirectory.none)
          (min claimed.toNat DataDirectory.limit * 8)
          (fun data pos => directoriesAt data pos (min claimed.toNat DataDirectory.limit)) :=
        FixedLayout.of_eq rfl fun data pos => (directoriesAt_eq data pos (Nat.min_le_right ..)).symm
      rw [if_neg lacks]
      exact layout.eq_ok inside

instance (size : Nat) (h : OptionalHeader) :
    FixedLayout (withDirectories size h) (h.stored * 8)
      (fun data pos => { h with directories := directoriesAt data pos h.stored }) := by
  unfold withDirectories
  exact FixedLayout.of_eq rfl fun _ _ => rfl

/-- How many directories are stored in a header at a position. -/
def storedAt (wide : Bool) (data : Bytes) (pos : Nat) : Nat :=
  min (data.leNat (pos + if wide then 108 else 92) 4) DataDirectory.limit

theorem stored_fixedAt (wide : Bool) (data : Bytes) (pos : Nat) :
    (fixedAt wide data pos).stored = storedAt wide data pos := by
  have claimed : (fixedAt wide data pos).directoryCount.toNat = _ :=
    UInt32.toNat_ofNat_of_lt' (data.leNat_lt (pos + if wide then 108 else 92) 4)
  rw [stored, storedAt, claimed]

/-- The header at a position, in one of the two layouts. -/
def statedAt (wide : Bool) (data : Bytes) (pos : Nat) : OptionalHeader :=
  { fixedAt wide data pos with
    directories := directoriesAt data (pos + fixedSize wide) (storedAt wide data pos) }

/-- A header of `size` bytes at a position has room for its fields and its directories. -/
structure FitsAt (wide : Bool) (data : Bytes) (pos size : Nat) : Prop where
  magic : data.leNat pos 2 = (magicOf wide).toNat
  stored : fixedSize wide + storedAt wide data pos * 8 ≤ size

theorem run_readFields_eq_ok {start size : Nat} {data : Bytes} {h : OptionalHeader} :
    (readFields start size).run data = .ok h ↔
      ∃ wide, FitsAt wide data 0 data.size ∧ h = statedAt wide data 0 := by
  simp only [run_eq_ok, readFields_eq_ok, Bytes.uint16_eq_iff]
  constructor
  · rintro ⟨c', wide, magic, read⟩
    obtain ⟨fixed, later⟩ := (FixedLayout.bind_eq_ok (Nat.zero_le _)).1 read
    obtain ⟨fits, rfl, -⟩ := (FixedLayout.eq_ok fixed).1 later
    rw [Nat.zero_add, stored_fixedAt] at fits
    exact ⟨wide, ⟨magic, fits⟩, by rw [stored_fixedAt]; rfl⟩
  · rintro ⟨wide, ⟨magic, fits⟩, rfl⟩
    rw [← Nat.zero_add (fixedSize wide), ← stored_fixedAt] at fits
    have fixed := FixedLayout.of_fits (r := readFixed wide) (Nat.le_of_add_right_le fits)
    have later := FixedLayout.of_fits (r := withDirectories size (fixedAt wide data 0)) fits
    rw [stored_fixedAt] at later
    exact ⟨_, wide, magic, bind_eq_ok.2 ⟨_, _, fixed, later⟩⟩

section Part

variable {data part : Bytes} {pos stop : Nat} {wide : Bool}

/-- The fields of a header are the same in the part of the vector that is the header. -/
theorem fixedAt_of_part (h : part = data.extract pos stop) (fits : fixedSize wide ≤ part.size) :
    fixedAt wide part 0 = fixedAt wide data pos := by
  have field : ∀ i n, i + n ≤ fixedSize wide → part.leNat (0 + i) n = data.leNat (pos + i) n := by
    intro i n inside
    rw [Nat.zero_add, Bytes.leNat_of_extract h (by omega)]
  have first : part.leNat 0 2 = data.leNat pos 2 := field 0 2 (by cases wide <;> decide)
  unfold fixedAt
  cases wide
  · simp (disch := decide) only [first, field, Bool.false_eq_true, if_false]
  · simp (disch := decide) only [first, field, if_true]

theorem storedAt_of_part (h : part = data.extract pos stop) (fits : fixedSize wide ≤ part.size) :
    storedAt wide part 0 = storedAt wide data pos := by
  rw [← stored_fixedAt, ← stored_fixedAt, fixedAt_of_part h fits]

theorem fitsAt_of_part (h : part = data.extract pos stop) :
    FitsAt wide part 0 part.size ↔ FitsAt wide data pos part.size := by
  by_cases fits : fixedSize wide ≤ part.size
  · have first : part.leNat 0 2 = data.leNat pos 2 :=
      Bytes.leNat_of_extract h (Nat.le_trans (by cases wide <;> decide) fits)
    have stored := storedAt_of_part h fits
    exact ⟨fun ⟨m, s⟩ => ⟨first ▸ m, stored ▸ s⟩, fun ⟨m, s⟩ => ⟨first ▸ m, stored ▸ s⟩⟩
  · exact ⟨fun s => absurd (Nat.le_of_add_right_le s.stored) fits,
      fun s => absurd (Nat.le_of_add_right_le s.stored) fits⟩

theorem statedAt_of_part (h : part = data.extract pos stop) (fits : FitsAt wide part 0 part.size) :
    statedAt wide part 0 = statedAt wide data pos := by
  have fixed := Nat.le_of_add_right_le fits.stored
  have listed : directoriesAt part (0 + fixedSize wide) (storedAt wide part 0) =
      directoriesAt data (pos + fixedSize wide) (storedAt wide part 0) := by
    refine List.map_congr_left fun k _ => ?_
    split
    · next inside =>
      have room : fixedSize wide + k * 8 + 8 ≤ part.size := by
        have := fits.stored
        omega
      unfold DataDirectory.statedAt
      rw [Nat.zero_add, Bytes.leNat_of_extract h (by omega), Bytes.leNat_of_extract h (by omega)]
      simp only [Nat.add_assoc]
    · rfl
  rw [statedAt, statedAt, listed, fixedAt_of_part h fixed, storedAt_of_part h fixed]

end Part

/-- A header of a size is read if it is there and has room for what is read of it. -/
theorem read_eq_ok {size pos : Nat} {data : Bytes} {h : OptionalHeader} {c' : Cursor}
    (inside : pos ≤ data.size) : OptionalHeader.read size ⟨data, pos⟩ = .ok h c' ↔
      pos + size ≤ data.size ∧ (∃ wide, FitsAt wide data pos size ∧ h = statedAt wide data pos) ∧
        c' = ⟨data, pos + size⟩ := by
  rw [OptionalHeader.read, bind_of_ok (position_ok _), FixedLayout.bind_eq_ok inside,
    ofExcept_eq_ok, run_readFields_eq_ok]
  refine and_congr_right fun there => and_congr_left fun _ => exists_congr fun wide => ?_
  have length : (data.extract pos (pos + size)).size = size := by
    rw [Array.size_extract]
    omega
  have same : FitsAt wide (data.extract pos (pos + size)) 0 _ ↔ _ := fitsAt_of_part rfl
  constructor
  · rintro ⟨fits, rfl⟩
    exact ⟨length ▸ same.1 fits, statedAt_of_part rfl fits⟩
  · rintro ⟨fits, rfl⟩
    have fits := same.2 (length.symm ▸ fits)
    exact ⟨fits, (statedAt_of_part rfl fits).symm⟩

end OptionalHeader

theorem StubHeader.read_eq_ok {data : Bytes} {h : StubHeader} {c' : Cursor} :
    StubHeader.read ⟨data, 0⟩ = .ok h c' ↔
      128 ≤ data.size ∧ data.At [0x4D, 0x5A] 0 ∧
        h = ⟨expectedMagic, UInt32.ofNat (data.leNat 60 4)⟩ ∧ c' = ⟨data, 128⟩ := by
  rw [StubHeader.read, bind_of_ok (position_ok _), FixedLayout.bind_eq_ok (Nat.zero_le _), Nat.zero_add]
  refine and_congr_right fun fits => ?_
  have length : (data.extract 0 size).size = 128 := by
    rw [Array.size_extract, Nat.min_eq_left fits]
    rfl
  have magic : Bytes.leNat (data.extract 0 size) 0 2 = data.leNat 0 2 :=
    Bytes.leNat_of_extract rfl (by omega)
  have offset : Bytes.leNat (data.extract 0 size) 60 4 = data.leNat 60 4 := by
    rw [Bytes.leNat_of_extract rfl (by omega), Nat.zero_add]
  have letters : data.At [0x4D, 0x5A] 0 ↔ data.leNat 0 2 = 0x5A4D :=
    @Bytes.at_leBytes_iff data 0 2 0x5A4D (Nat.le_trans (by decide) fits) (by decide)
  have word : UInt16.ofNat (data.leNat 0 2) = expectedMagic ↔ data.leNat 0 2 = 0x5A4D :=
    Bytes.uint16_eq_iff
  dsimp only
  rw [magic, offset, letters, ← word, checked_eq_ok, Decidable.not_not]
  refine and_congr_right fun known => ?_
  rw [known]
  exact pure_eq_ok.trans (and_congr eq_comm eq_comm)

theorem readImageSignature_eq_ok {data : Bytes} {pos : Nat} {v : Unit} {c' : Cursor}
    (inside : pos ≤ data.size) : readImageSignature ⟨data, pos⟩ = .ok v c' ↔
      data.At [0x50, 0x45, 0, 0] pos ∧ c' = ⟨data, pos + 4⟩ := by
  rw [readImageSignature, bind_of_ok (position_ok _), FixedLayout.bind_eq_ok inside]
  by_cases fits : pos + 4 ≤ data.size
  · have letters : data.At [0x50, 0x45, 0, 0] pos ↔ data.leNat pos 4 = 0x4550 :=
      @Bytes.at_leBytes_iff data pos 4 0x4550 fits (by decide)
    have word : UInt32.ofNat (data.leNat pos 4) = 0x4550 ↔ data.leNat pos 4 = 0x4550 :=
      Bytes.uint32_eq_iff
    rw [and_iff_right fits, letters, ← word]
    by_cases known : UInt32.ofNat (data.leNat pos 4) = 0x4550
    · rw [if_neg (not_not_intro known), and_iff_right known]
      exact pure_eq_ok.trans ((and_iff_right rfl).trans eq_comm)
    · rw [if_pos known]
      exact ⟨nofun, fun h => absurd h.1 known⟩
  · exact ⟨fun h => absurd h.1 fits, fun h => absurd (h.1.fits (by simp)) fits⟩

/-- The entries of a section table at a position. -/
def SectionTable.statedAt (count : Nat) (data : Bytes) (pos : Nat) : SectionTable :=
  ⟨(List.range count).map fun k => Section.statedAt data (pos + k * Section.size)⟩

instance (count : Nat) :
    FixedLayout (SectionTable.read count) (count * Section.size) (SectionTable.statedAt count) where
  eq_ok {data pos v c'} inside := by
    have entries : FixedLayout (return (⟨← times Section.read count⟩ : SectionTable))
        (count * Section.size) (SectionTable.statedAt count) := FixedLayout.of_eq rfl fun _ _ => rfl
    rw [SectionTable.read]
    by_cases fits : count * Section.size ≤ Cursor.remaining ⟨data, pos⟩
    · rw [bind_of_ok (ensure_of_fits fits)]
      exact entries.eq_ok inside
    · rw [bind_of_error (ensure_of_lacks fits), ← FixedLayout.le_remaining_iff inside]
      exact ⟨nofun, fun h => absurd h.1 fits⟩

/-! ## The headers of a file -/

theorem Reader.seek_eq_ok {target pos : Nat} {data : Bytes} {c' : Cursor} {v : Unit} :
    seek target ⟨data, pos⟩ = .ok v c' ↔ target ≤ data.size ∧ c' = ⟨data, target⟩ := by
  unfold seek
  split
  · next inside =>
    rw [and_iff_right inside, EStateM.Result.ok.injEq]
    exact (and_iff_right rfl).trans eq_comm
  · next past => exact ⟨nofun, fun h => absurd h.1 past⟩

namespace Headers

/-- Where the image begins, as the stub header says. -/
def imageStart (data : Bytes) : Nat := data.leNat 60 4

/-- Where the optional header begins: behind the signature and the file header. -/
def optionalStart (data : Bytes) : Nat := imageStart data + 24

/-- The size of the optional header, as the file header says. -/
def optionalSize (data : Bytes) : Nat := data.leNat (imageStart data + 20) 2

/-- Where the section table begins. -/
def tableStart (data : Bytes) : Nat := optionalStart data + optionalSize data

/-- The count of sections, as the file header says. -/
def sectionCount (data : Bytes) : Nat := data.leNat (imageStart data + 6) 2

/-- What of a file decides whether its headers are read. -/
structure StandIn (data : Bytes) : Prop where
  stub : 128 ≤ data.size
  stubMagic : data.At [0x4D, 0x5A] 0
  signature : data.At [0x50, 0x45, 0, 0] (imageStart data)
  file : optionalStart data ≤ data.size
  optional : tableStart data ≤ data.size
  layout : ∃ wide, OptionalHeader.FitsAt wide data (optionalStart data) (optionalSize data)
  sections : tableStart data + sectionCount data * 40 ≤ data.size

/-- The headers of a file whose optional header is of a layout. -/
def statedIn (wide : Bool) (data : Bytes) : Headers where
  stub := ⟨StubHeader.expectedMagic, UInt32.ofNat (data.leNat 60 4)⟩
  file := FileHeader.statedAt data (imageStart data + 4)
  optional := OptionalHeader.statedAt wide data (optionalStart data)
  sections := SectionTable.statedAt (sectionCount data) data (tableStart data)

theorem getElem?_map_range {α : Type} (f : Nat → α) {n k : Nat} (less : k < n) :
    ((List.range n).map f)[k]? = some (f k) := by
  rw [List.getElem?_map, List.getElem?_range less, Option.map_some]

/-- The headers are read exactly if they stand in the file, and then they are those that stand there. -/
theorem run_read_eq_ok {data : Bytes} {h : Headers} :
    Headers.read.run data = .ok h ↔ StandIn data ∧ ∃ wide,
      OptionalHeader.FitsAt wide data (optionalStart data) (optionalSize data) ∧
        h = statedIn wide data := by
  have start : (UInt32.ofNat (data.leNat 60 4)).toNat = imageStart data :=
    UInt32.toNat_ofNat_of_lt' (data.leNat_lt 60 4)
  have size : (FileHeader.statedAt data (imageStart data + 4)).optionalHeaderSize.toNat =
      optionalSize data := UInt16.toNat_ofNat_of_lt (data.leNat_lt (imageStart data + 20) 2)
  have count : (FileHeader.statedAt data (imageStart data + 4)).sectionCount.toNat =
      sectionCount data := UInt16.toNat_ofNat_of_lt (data.leNat_lt (imageStart data + 6) 2)
  rw [run_eq_ok]
  constructor
  · rintro ⟨c', read⟩
    obtain ⟨stub, _, first, read⟩ := bind_eq_ok.1 read
    obtain ⟨enough, magic, rfl, rfl⟩ := StubHeader.read_eq_ok.1 first
    obtain ⟨_, _, moved, read⟩ := bind_eq_ok.1 read
    obtain ⟨inside, rfl⟩ := seek_eq_ok.1 moved
    rw [start] at inside read
    obtain ⟨_, _, signed, read⟩ := bind_eq_ok.1 read
    obtain ⟨signature, rfl⟩ := (readImageSignature_eq_ok inside).1 signed
    have signed : imageStart data + 4 ≤ data.size := signature.fits (by simp)
    obtain ⟨file, read⟩ := (FixedLayout.bind_eq_ok signed).1 read
    obtain ⟨optional, _, middle, read⟩ := bind_eq_ok.1 read
    obtain ⟨whole, ⟨wide, fits, rfl⟩, rfl⟩ := (OptionalHeader.read_eq_ok file).1 middle
    rw [size] at whole fits read
    obtain ⟨table, read⟩ := (FixedLayout.bind_eq_ok whole).1 read
    rw [count] at table read
    obtain ⟨rfl, -⟩ := pure_eq_ok.1 read
    exact ⟨⟨enough, magic, signature, file, whole, ⟨wide, fits⟩, table⟩, wide, fits, rfl⟩
  · rintro ⟨⟨enough, magic, signature, file, whole, -, table⟩, wide, fits, rfl⟩
    have inside : imageStart data ≤ data.size := Nat.le_of_add_right_le file
    have signed : imageStart data + 4 ≤ data.size := signature.fits (by simp)
    refine ⟨⟨data, tableStart data + sectionCount data * Section.size⟩, ?_⟩
    refine bind_eq_ok.2 ⟨_, _, StubHeader.read_eq_ok.2 ⟨enough, magic, rfl, rfl⟩, ?_⟩
    refine bind_eq_ok.2 ⟨(), _, seek_eq_ok.2 ⟨start.symm ▸ inside, rfl⟩, ?_⟩
    rw [start]
    refine bind_eq_ok.2 ⟨(), _, (readImageSignature_eq_ok inside).2 ⟨signature, rfl⟩, ?_⟩
    refine (FixedLayout.bind_eq_ok signed).2 ⟨file, ?_⟩
    rw [size, count]
    refine bind_eq_ok.2 ⟨_, _, (OptionalHeader.read_eq_ok file).2 ⟨whole, ⟨wide, fits, rfl⟩, rfl⟩, ?_⟩
    exact (FixedLayout.bind_eq_ok whole).2 ⟨table, pure_eq_ok.2 ⟨rfl, rfl⟩⟩

/--
The headers of a file are read exactly if what is read stands where the offsets and the
sizes in the file point. The directories, the base and the sections are those at their
positions, whatever else the optional header holds.
-/
theorem read_by_position (data : Bytes) :
    ((∃ h, Headers.read.run data = .ok h) ↔ StandIn data) ∧
      ∀ h, Headers.read.run data = .ok h →
        (∃ wide : Bool, data.leNat (optionalStart data) 2 = (if wide then 0x20B else 0x10B) ∧
          (h.optional.directories.length = 16 ∧ ∀ k, k < 16 → h.optional.directories[k]? = some
            (if k < min (data.leNat (optionalStart data + if wide then 108 else 92) 4) 16 then
              DataDirectory.statedAt data (optionalStart data + (if wide then 112 else 96) + k * 8)
            else ⟨0, 0⟩)) ∧
          h.optional.imageBase.toNat =
            if wide then data.leNat (optionalStart data + 24) 8
            else data.leNat (optionalStart data + 28) 4) ∧
        h.sections.sections.length = sectionCount data ∧ ∀ k, k < sectionCount data →
          h.sections.sections[k]? = some (Section.statedAt data (tableStart data + k * 40)) := by
  constructor
  · constructor
    · rintro ⟨h, found⟩
      exact (run_read_eq_ok.1 found).1
    · intro stands
      obtain ⟨wide, fits⟩ := stands.layout
      exact ⟨_, run_read_eq_ok.2 ⟨stands, wide, fits, rfl⟩⟩
  · intro h found
    obtain ⟨-, wide, fits, rfl⟩ := run_read_eq_ok.1 found
    refine ⟨⟨wide, ?_, ⟨?_, fun k less => ?_⟩, ?_⟩, ?_, fun k less => ?_⟩
    · rw [fits.magic]
      cases wide <;> rfl
    · exact List.length_map _ |>.trans List.length_range
    · exact getElem?_map_range _ less
    · cases wide
      · exact UInt64.toNat_ofNat_of_lt' (Nat.lt_trans (data.leNat_lt _ 4) (by decide))
      · exact UInt64.toNat_ofNat_of_lt' (data.leNat_lt _ 8)
    · exact List.length_map _ |>.trans List.length_range
    · exact getElem?_map_range _ less

/--
The headers of an image of the wide layout that begins inside the stub header: the offset
of the image is the alignment of the sections. It claims more directories than there are,
and four bytes of its optional header belong to no field.
-/
def overlapped : Bytes :=
  let half := Bytes.leBytes 2
  let word := Bytes.leBytes 4
  let zeros := fun n => List.replicate n 0
  ([0x4D, 0x5A, 0, 0] ++ [0x50, 0x45, 0, 0] ++ zeros 2 ++ half 1 ++ zeros 12 ++ half 244 ++ half 0 ++
    half 0x20B ++ zeros 22 ++ word 0x40000000 ++ word 1 ++ word 4 ++ zeros 72 ++ word 17 ++
    zeros 112 ++ word 0x2000 ++ word 72 ++ zeros 12 ++
    [0x2E, 0x74, 0x65, 0x78, 0x74, 0, 0, 0] ++ word 539 ++ word 0x1000 ++ zeros 24).toArray

theorem read_by_position_overlapped :
    StandIn overlapped ∧ ∃ h, Headers.read.run overlapped = .ok h ∧
      h.optional.imageBase.toNat = 0x140000000 ∧
      h.optional.directories[14]? = some ⟨0x2000, 72⟩ ∧ h.sections.sections.length = 1 ∧
      h.sections.sections[0]?.map (·.virtualAddress) = some 0x1000 := by
  have stands : StandIn overlapped := by
    constructor
    case layout => exact ⟨true, by decide +kernel, by decide +kernel⟩
    all_goals decide +kernel
  obtain ⟨accepted, placed⟩ := read_by_position overlapped
  obtain ⟨h, found⟩ := accepted.2 stands
  obtain ⟨⟨wide, magic, ⟨-, directory⟩, base⟩, count, entry⟩ := placed h found
  obtain rfl : wide = true := by
    cases wide
    · exact absurd magic (by decide +kernel)
    · rfl
  refine ⟨stands, h, found, ?_, ?_, ?_, ?_⟩
  · rw [base]; decide +kernel
  · rw [directory 14 (by decide)]; decide +kernel
  · rw [count]; decide +kernel
  · rw [entry 0 (by decide +kernel)]; decide +kernel

end Headers

end ManagedImage
