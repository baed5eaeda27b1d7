/-
The look-up of an address in the section table. The first section of the table
that holds the address decides, and nothing behind it counts: either the address
has a byte in the raw data of that section, at the same depth, or it has none in
the file (`SectionTable.fileOffset_of_first`). If no address belongs to two
sections, the order of the table says nothing (`SectionTable.fileOffset_perm`).

Where a section ends is a sum without a width. The machine has 32 bits for it and
takes a section whose end does not fit as one without an end, which comes to the
same for every address there is (`Machine.sectionOffset_eq`).
-/
import Mathlib.Data.List.Pairwise
import ManagedImage.Proofs.Machine.Headers

namespace ManagedImage

/-- The range of the file that the raw data of a section takes. -/
def Section.rawSpan (s : Section) : Span := ⟨s.rawOffset.toNat, s.rawOffset.toNat + s.rawSize.toNat⟩

namespace SectionTable

variable {t t' : SectionTable} {rva : UInt32} {s s' : Section} {offset : Nat}

/-- The section holds the address, and none in front of it does. -/
def FirstHolding (t : SectionTable) (rva : UInt32) (s : Section) : Prop :=
  ∃ before after, t.sections = before ++ s :: after ∧ s.Holds rva ∧
    ∀ other ∈ before, ¬ other.Holds rva

theorem holding?_eq_some : t.holding? rva = some s ↔ t.FirstHolding rva s := by
  simp [holding?, FirstHolding, List.find?_eq_some_iff_append]
  tauto

theorem holding?_of_alone (listed : s ∈ t.sections) (held : s.Holds rva)
    (alone : ∀ s' ∈ t.sections, s'.Holds rva → s' = s) : t.holding? rva = some s := by
  cases found : t.holding? rva with
  | none => exact absurd held (by simpa using List.find?_eq_none.1 found s listed)
  | some s' =>
    have held' : s'.Holds rva := by simpa using List.find?_some found
    rw [alone s' (List.mem_of_find?_eq_some found) held']

theorem fileOffset_of_holding (held : t.holding? rva = some s)
    (backed : s.depth rva < s.rawSize.toNat) :
    t.fileOffset rva = .ok (s.rawOffset.toNat + s.depth rva) :=
  fileOffset_eq_ok.2 ⟨s, held, backed, rfl⟩

/-! ## Tables without a common address -/

/-- No address belongs to two sections of the table. -/
def Disjoint (t : SectionTable) : Prop :=
  t.sections.Pairwise fun a b => ∀ rva, ¬ (a.Holds rva ∧ b.Holds rva)

theorem Disjoint.eq_of_holds (disjoint : t.Disjoint) (listed : s ∈ t.sections)
    (listed' : s' ∈ t.sections) (held : s.Holds rva) (held' : s'.Holds rva) : s' = s := by
  have symm : Std.Symm fun a b : Section => ∀ rva, ¬ (a.Holds rva ∧ b.Holds rva) :=
    ⟨fun a b apart rva both => apart rva both.symm⟩
  by_contra other
  exact List.Pairwise.forall disjoint listed' listed other rva ⟨held', held⟩

theorem holding?_perm (disjoint : t.Disjoint) (perm : t'.sections.Perm t.sections) :
    t'.holding? rva = t.holding? rva := by
  cases found : t.holding? rva with
  | none =>
    refine List.find?_eq_none.2 fun s listed => ?_
    exact List.find?_eq_none.1 found s (perm.subset listed)
  | some s =>
    have listed := List.mem_of_find?_eq_some found
    have held : s.Holds rva := by simpa using List.find?_some found
    refine holding?_of_alone (perm.symm.subset listed) held fun s' listed' held' => ?_
    exact disjoint.eq_of_holds listed (perm.subset listed') held held'

theorem fileOffset_perm (disjoint : t.Disjoint) (perm : t'.sections.Perm t.sections) :
    t'.fileOffset rva = t.fileOffset rva := by
  rw [fileOffset, fileOffset, holding?_perm disjoint perm]

/-! ## The look-up -/

theorem firstHolding_iff_exists : (∃ s ∈ t.sections, s.Holds rva) ↔ ∃ s, t.FirstHolding rva s := by
  simp only [← holding?_eq_some, ← Option.isSome_iff_exists]
  simp [holding?]

theorem mem_rawSpan (backed : s.depth rva < s.rawSize.toNat) :
    s.rawOffset.toNat + s.depth rva ∈ s.rawSpan :=
  ⟨Nat.le_add_right .., Nat.add_lt_add_left backed _⟩

/-- An address that lies nowhere in the file is refused by its own name. -/
theorem fileOffset_of_not_ok (missing : ¬ ∃ offset, t.fileOffset rva = .ok offset) :
    t.fileOffset rva = .error (.unmappedRva rva) := by
  cases answer : t.fileOffset rva with
  | ok offset => exact absurd ⟨offset, answer⟩ missing
  | error e => rw [fileOffset_eq_error answer]

/--
**Where an address lies in the file.** It lies there exactly if some section holds
it and the first that does has it within its raw data; then it stands in that data
as deep as the address stands in the section. Any other address is refused. The
machine, which tests the end of a section for overflow, answers the same; and in a
table without common addresses the order of the sections does not matter.
-/
theorem fileOffset_of_first (t : SectionTable) (rva : UInt32) :
    ((∃ s ∈ t.sections, s.Holds rva) ↔ ∃ s, t.FirstHolding rva s) ∧
    ((∃ offset, t.fileOffset rva = .ok offset) ↔
      ∃ s, t.FirstHolding rva s ∧ rva.toNat - s.virtualAddress.toNat < s.rawSize.toNat) ∧
    (∀ s, t.FirstHolding rva s → rva.toNat - s.virtualAddress.toNat < s.rawSize.toNat →
      ∃ offset, t.fileOffset rva = .ok offset ∧
        offset = s.rawOffset.toNat + (rva.toNat - s.virtualAddress.toNat) ∧ offset ∈ s.rawSpan) ∧
    ((¬ ∃ offset, t.fileOffset rva = .ok offset) → t.fileOffset rva = .error (.unmappedRva rva)) ∧
    Machine.sectionOffset t rva = Machine.Run.of (t.fileOffset rva) ∧
    (t.Disjoint → ∀ t' : SectionTable, t'.sections.Perm t.sections →
      t'.fileOffset rva = t.fileOffset rva) := by
  have there : ∀ s, t.FirstHolding rva s → s.depth rva < s.rawSize.toNat →
      t.fileOffset rva = .ok (s.rawOffset.toNat + s.depth rva) :=
    fun s first => fileOffset_of_holding (holding?_eq_some.2 first)
  refine ⟨firstHolding_iff_exists, ⟨?found, ?back⟩, ?place, fileOffset_of_not_ok,
    Machine.sectionOffset_eq t rva, fun disjoint t' => fileOffset_perm disjoint⟩
  case found =>
    intro ⟨offset, answer⟩
    obtain ⟨s, held, backed, -⟩ := fileOffset_eq_ok.1 answer
    exact ⟨s, holding?_eq_some.1 held, backed⟩
  case back => exact fun ⟨s, first, backed⟩ => ⟨_, there s first backed⟩
  case place => exact fun s first backed => ⟨_, there s first backed, rfl, mem_rawSpan backed⟩

/-- Two sections: the first has a tail, the second reaches past the last address there is. -/
def edgeTable : SectionTable :=
  ⟨[⟨Array.replicate 8 0, 0x3000, 0x1000, 0x200, 0x400, 0, 0, 0, 0, 0⟩,
    ⟨Array.replicate 8 0, 0x2000, 0xFFFFF000, 0x1000, 0x600, 0, 0, 0, 0, 0⟩]⟩

theorem edgeTable_disjoint : edgeTable.Disjoint := by
  simp [edgeTable, Disjoint, Section.Holds]
  omega

theorem fileOffset_edgeTable :
    edgeTable.fileOffset 0xFFFFFFFF = .ok 0x15FF ∧
    (⟨edgeTable.sections.reverse⟩ : SectionTable).fileOffset 0xFFFFFFFF = .ok 0x15FF ∧
    edgeTable.fileOffset 0x1200 = .error (.unmappedRva 0x1200) := by
  obtain ⟨-, -, place, -, -, order⟩ := fileOffset_of_first edgeTable 0xFFFFFFFF
  obtain ⟨-, found, -, missing, -, -⟩ := fileOffset_of_first edgeTable 0x1200
  have last : edgeTable.FirstHolding 0xFFFFFFFF edgeTable.sections[1] :=
    ⟨[edgeTable.sections[0]], [], rfl, by decide, by decide⟩
  obtain ⟨offset, answer, value, -⟩ := place _ last (by decide)
  have start : edgeTable.fileOffset 0xFFFFFFFF = .ok 0x15FF := answer.trans (congrArg _ value)
  have reversed := order edgeTable_disjoint ⟨edgeTable.sections.reverse⟩ (List.reverse_perm _)
  refine ⟨start, reversed.trans start, missing fun ok => ?_⟩
  obtain ⟨s, first, backed⟩ := found.1 ok
  have held : edgeTable.holding? 0x1200 = some edgeTable.sections[0] := by decide
  obtain rfl : s = edgeTable.sections[0] := Option.some.inj ((holding?_eq_some.2 first).symm.trans held)
  exact absurd backed (by decide)

end SectionTable

end ManagedImage
