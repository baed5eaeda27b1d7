/-
Sections and the map from addresses to the file. A section holds the addresses
from its own up to its virtual size; the first section of the table that holds an
address decides. Only the addresses within its raw data have bytes in the file,
the rest is a tail that is zero once loaded.

Main statement: where an address lies in the file (`fileOffset_eq_ok`).
-/
import ManagedImage.Cursor
import ManagedImage.Flag

namespace ManagedImage

/-- An entry of the section table. -/
structure Section where
  /-- Eight bytes, padded with zeros. -/
  rawName : Bytes
  virtualSize : UInt32
  virtualAddress : UInt32
  rawSize : UInt32
  rawOffset : UInt32
  relocationsOffset : UInt32
  lineNumbersOffset : UInt32
  relocationCount : UInt16
  lineNumberCount : UInt16
  characteristics : UInt32
deriving DecidableEq, Repr

namespace Section

/-- An entry takes 40 bytes. -/
def size : Nat := 40

/-- Reads an entry. -/
def read : Reader Section := do
  let rawName ← Reader.take 8
  let virtualSize ← Reader.u32
  let virtualAddress ← Reader.u32
  let rawSize ← Reader.u32
  let rawOffset ← Reader.u32
  let relocationsOffset ← Reader.u32
  let lineNumbersOffset ← Reader.u32
  let relocationCount ← Reader.u16
  let lineNumberCount ← Reader.u16
  let characteristics ← Reader.u32
  return { rawName, virtualSize, virtualAddress, rawSize, rawOffset, relocationsOffset,
           lineNumbersOffset, relocationCount, lineNumberCount, characteristics }

/-- The name without its padding; a name that is not UTF-8 reads as empty. -/
def name (s : Section) : String := (Utf8.decode? s.rawName.upToNul).getD ""

/-- Whether an address belongs to the section. -/
def Holds (s : Section) (rva : UInt32) : Prop :=
  s.virtualAddress.toNat ≤ rva.toNat ∧ rva.toNat < s.virtualAddress.toNat + s.virtualSize.toNat

instance (s : Section) (rva : UInt32) : Decidable (s.Holds rva) :=
  inferInstanceAs (Decidable (_ ∧ _))

/-- How far into the section an address lies. -/
def depth (s : Section) (rva : UInt32) : Nat := rva.toNat - s.virtualAddress.toNat

/-- The named bits of `characteristics`. -/
def flags : List Flag :=
  [⟨"CNT_CODE", 0x00000020⟩, ⟨"CNT_INITIALIZED_DATA", 0x00000040⟩,
   ⟨"CNT_UNINITIALIZED_DATA", 0x00000080⟩, ⟨"MEM_DISCARDABLE", 0x02000000⟩,
   ⟨"MEM_SHARED", 0x10000000⟩, ⟨"MEM_EXECUTE", 0x20000000⟩, ⟨"MEM_READ", 0x40000000⟩,
   ⟨"MEM_WRITE", 0x80000000⟩]

end Section

/-- The sections of an image, in the order of the table. -/
structure SectionTable where
  sections : List Section
deriving DecidableEq, Repr

namespace SectionTable

/-- Reads a table of `count` entries, all of which must be there before the first is read. -/
def read (count : Nat) : Reader SectionTable := do
  Reader.ensure (count * Section.size)
  return ⟨← Reader.times Section.read count⟩

/-- The first section of a name. -/
def byName? (t : SectionTable) (name : String) : Option Section :=
  t.sections.find? (·.name = name)

/-- The section that an address belongs to: the first that holds it. -/
def holding? (t : SectionTable) (rva : UInt32) : Option Section :=
  t.sections.find? (·.Holds rva)

/-- The section in whose zero tail an address lies. -/
def tail? (t : SectionTable) (rva : UInt32) : Option Section :=
  (t.holding? rva).filter fun s => s.rawSize.toNat ≤ s.depth rva

/-- Where the byte of an address lies in the file. -/
def fileOffset (t : SectionTable) (rva : UInt32) : Except Error Nat :=
  match t.holding? rva with
  | none => .error (.unmappedRva rva)
  | some s =>
    if s.depth rva < s.rawSize.toNat then .ok (s.rawOffset.toNat + s.depth rva)
    else .error (.unmappedRva rva)

theorem fileOffset_eq_ok {t : SectionTable} {rva : UInt32} {offset : Nat} :
    t.fileOffset rva = .ok offset ↔
      ∃ s, t.holding? rva = some s ∧ s.depth rva < s.rawSize.toNat ∧
        offset = s.rawOffset.toNat + s.depth rva := by
  unfold fileOffset
  cases t.holding? rva with
  | none => simp
  | some s =>
    by_cases backed : s.depth rva < s.rawSize.toNat
    · simp [backed, eq_comm]
    · simp [backed]

/-- The only way for an address not to lie in the file. -/
theorem fileOffset_eq_error {t : SectionTable} {rva : UInt32} {e : Error}
    (h : t.fileOffset rva = .error e) : e = .unmappedRva rva := by
  unfold fileOffset at h
  split at h
  · simp_all
  · split at h <;> simp_all

end SectionTable

end ManagedImage
