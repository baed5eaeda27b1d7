/-
Coded indexes, packed and split. The tags of a kind fit in its tag bits and no two
of them select one table, so splitting a value undoes packing and loses nothing
(`CodedIndex.decode_eq_ok_iff_packed`, `decode_injective`). A column is narrow
exactly if each row that its tables have can be packed in 16 bits
(`Schema.coded_eq_two_iff`), and each of these rows is then read back from two bytes
(`CodedIndex.read_of_row`). `CodedIndex.decode_inverts_packing` puts these together.

Nothing is said here of rows that the tables do not have: a reference may point past
the end of its table.
-/
import Mathlib.Algebra.Group.Nat.Defs
import ManagedImage.Proofs.TableRows

namespace ManagedImage

open Reader

/-! ## Tags -/

namespace CodedKind

variable {k : CodedKind} {tag row : Nat} {t : TableId}

theorem tags_eq (k : CodedKind) : k.tags = 2 ^ k.tagBits := Nat.one_shiftLeft _

theorem target?_eq_some : k.target? tag = some t ↔ k.targets[tag]? = some (some t) :=
  Option.join_eq_some_iff

theorem lt_of_listed {target : Option TableId} (listed : k.targets[tag]? = some target) :
    tag < 2 ^ k.tagBits := by
  obtain ⟨inside, -⟩ := List.getElem?_eq_some_iff.1 listed
  have few := k.targets_length_le
  rw [tags_eq] at few
  omega

/-- No two tags select one table. -/
theorem tag_of_listed (listed : k.targets[tag]? = some (some t)) : k.tag t = tag := by
  have alone : ∀ k : CodedKind, ∀ n < k.targets.length,
      ((k.targets[n]?).join.all fun t => k.tag t = n) = true := by intro k; cases k <;> decide
  obtain ⟨inside, -⟩ := List.getElem?_eq_some_iff.1 listed
  have own := alone k tag inside
  rw [listed] at own
  exact of_decide_eq_true own

/-- The packed form in bits: the row is shifted past the tag. -/
theorem pack_eq_or (small : tag < 2 ^ k.tagBits) : k.pack tag row = row <<< k.tagBits ||| tag := by
  rw [pack, tags_eq, ← Nat.shiftLeft_add_eq_or_of_lt small, Nat.shiftLeft_eq]

theorem pack_mod (small : tag < 2 ^ k.tagBits) : k.pack tag row % 2 ^ k.tagBits = tag := by
  rw [pack, tags_eq, Nat.mul_comm, Nat.mul_add_mod, Nat.mod_eq_of_lt small]

theorem pack_div (small : tag < 2 ^ k.tagBits) : k.pack tag row / 2 ^ k.tagBits = row := by
  rw [pack, tags_eq, Nat.mul_comm, Nat.mul_add_div (Nat.two_pow_pos _), Nat.div_eq_of_lt small,
    Nat.add_zero]

/-- Whether a row can be packed in 16 bits does not depend on the tag beside it. -/
theorem pack_lt_iff (small : tag < 2 ^ k.tagBits) :
    k.pack tag row < 2 ^ 16 ↔ row * 2 ^ k.tagBits < 2 ^ 16 := by
  have few := Nat.le_trans k.tagBits_le (by decide : 5 ≤ 16)
  have positive := Nat.two_pow_pos k.tagBits
  have whole : 2 ^ 16 = 2 ^ (16 - k.tagBits) * 2 ^ k.tagBits := by
    rw [← Nat.pow_add, Nat.sub_add_cancel few]
  rw [whole, ← Nat.div_lt_iff_lt_mul positive, pack_div small, Nat.mul_lt_mul_right positive]

theorem le_pack (k : CodedKind) (tag row : Nat) : row ≤ k.pack tag row := by
  rw [pack, tags_eq]
  exact Nat.le_add_right_of_le (Nat.le_mul_of_pos_right _ (Nat.two_pow_pos _))

theorem mem_candidates : t ∈ k.candidates ↔ ∃ tag : Nat, k.targets[tag]? = some (some t) := by
  rw [candidates, List.mem_filterMap, ← List.mem_iff_getElem?]
  exact ⟨fun ⟨_, mem, same⟩ => same ▸ mem, fun mem => ⟨_, mem, rfl⟩⟩

end CodedKind

/-! ## Splitting a value -/

namespace CodedIndex

variable {k : CodedKind} {value value' row : UInt32} {t : TableId} {i : CodedIndex} {e : Error}

theorem decode_eq_ok : decode k value = .ok ⟨t, row⟩ ↔
    k.targets[value.toNat % 2 ^ k.tagBits]? = some (some t) ∧
      row.toNat = value.toNat / 2 ^ k.tagBits := by
  have small : value.toNat / 2 ^ k.tagBits < 2 ^ 32 :=
    Nat.lt_of_le_of_lt (Nat.div_le_self ..) value.toNat_lt
  rw [← CodedKind.target?_eq_some, decode, CodedKind.tags_eq]
  cases k.target? (value.toNat % 2 ^ k.tagBits) with
  | none => exact ⟨nofun, fun h => nomatch h.1⟩
  | some table =>
    have number : UInt32.ofNat (value.toNat / 2 ^ k.tagBits) = row ↔
        row.toNat = value.toNat / 2 ^ k.tagBits := by
      rw [← UInt32.toNat_inj, UInt32.toNat_ofNat_of_lt' small, eq_comm]
    simp only [Except.ok.injEq, CodedIndex.mk.injEq, Option.some.injEq, number]

/-- Splitting undoes packing, and what was split was packed. -/
theorem decode_eq_ok_iff_packed : decode k value = .ok ⟨t, row⟩ ↔
    ∃ tag, k.targets[tag]? = some (some t) ∧ value.toNat = row.toNat <<< k.tagBits ||| tag := by
  rw [decode_eq_ok]
  constructor
  · rintro ⟨listed, rest⟩
    refine ⟨_, listed, ?_⟩
    rw [← CodedKind.pack_eq_or (CodedKind.lt_of_listed listed), CodedKind.pack, rest,
      CodedKind.tags_eq, Nat.div_add_mod']
  · rintro ⟨tag, listed, packed⟩
    have small := CodedKind.lt_of_listed listed
    rw [packed, ← CodedKind.pack_eq_or small, CodedKind.pack_mod small, CodedKind.pack_div small]
    exact ⟨listed, rfl⟩

theorem decode_injective (first : decode k value = .ok i) (second : decode k value' = .ok i) :
    value = value' := by
  obtain ⟨tag, listed, packed⟩ := decode_eq_ok_iff_packed.1 first
  obtain ⟨tag', listed', packed'⟩ := decode_eq_ok_iff_packed.1 second
  have same : tag = tag' := (CodedKind.tag_of_listed listed).symm.trans (CodedKind.tag_of_listed listed')
  rw [← UInt32.toNat_inj, packed, packed', same]

/-- Splitting fails at a tag that is reserved or past the last one, and nowhere else. -/
theorem decode_eq_error : decode k value = .error e ↔
    e = .malformed (.codedTag (value.toNat % 2 ^ k.tagBits) k value.toNat) ∧
      (k.targets.length ≤ value.toNat % 2 ^ k.tagBits ∨
        k.targets[value.toNat % 2 ^ k.tagBits]? = some none) := by
  rw [decode, CodedKind.tags_eq, CodedKind.target?, ← List.getElem?_eq_none_iff]
  generalize k.targets[value.toNat % 2 ^ k.tagBits]? = target
  rcases target with _ | _ | t <;> simp [eq_comm]

end CodedIndex

/-! ## The width of a column -/

namespace Schema

variable {s : Schema} {k : CodedKind}

theorem coded_eq_two : s.coded k = 2 ↔ ∀ t ∈ k.candidates, s.rows t * 2 ^ k.tagBits < 2 ^ 16 := by
  have wide : s.coded k = 2 ↔ s.isWideCoded k = false := by
    rw [coded]
    cases s.isWideCoded k <;> decide
  rw [wide, isWideCoded, List.any_eq_false, CodedKind.tags_eq]
  simp only [decide_eq_true_eq, Nat.not_le, Nat.reducePow]

/-- A column is narrow exactly if each row that its tables have can be packed in 16 bits. -/
theorem coded_eq_two_iff : s.coded k = 2 ↔ ∀ (tag : Nat) (t : TableId),
    k.targets[tag]? = some (some t) → ∀ row ≤ s.rows t, row <<< k.tagBits ||| tag < 2 ^ 16 := by
  rw [coded_eq_two]
  constructor
  · intro all tag t listed row inside
    have small := CodedKind.lt_of_listed listed
    rw [← CodedKind.pack_eq_or small, CodedKind.pack_lt_iff small]
    exact Nat.lt_of_le_of_lt (Nat.mul_le_mul_right _ inside)
      (all t (CodedKind.mem_candidates.2 ⟨tag, listed⟩))
  · intro all t mem
    obtain ⟨tag, listed⟩ := CodedKind.mem_candidates.1 mem
    have small := CodedKind.lt_of_listed listed
    have last := all tag t listed _ (Nat.le_refl _)
    rwa [← CodedKind.pack_eq_or small, CodedKind.pack_lt_iff small] at last

end Schema

namespace CodedIndex

variable {s : Schema} {k : CodedKind} {data : Bytes} {pos : Nat}

/-- A row that can be packed in 16 bits is read back from the two bytes of its packed form. -/
theorem read_of_row (narrow : s.coded k = 2) {tag row : Nat} {t : TableId}
    (listed : k.targets[tag]? = some (some t)) (short : row <<< k.tagBits ||| tag < 2 ^ 16)
    {before after : List UInt8} (written : data =
      (before ++ Bytes.leBytes 2 (row <<< k.tagBits ||| tag) ++ after).toArray) :
    CodedIndex.read s k ⟨data, before.length⟩ =
      .ok ⟨t, UInt32.ofNat row⟩ ⟨data, before.length + 2⟩ := by
  have small := CodedKind.lt_of_listed listed
  rw [← CodedKind.pack_eq_or small] at short written
  have fits : before.length + 2 ≤ data.size := by
    rw [written, List.size_toArray, List.length_append, List.length_append, Bytes.length_leBytes]
    omega
  have field : data.leNat before.length 2 = k.pack tag row := by
    rw [written, Bytes.leNat_leBytes]
    exact Nat.mod_eq_of_lt short
  have split : decode k (UInt32.ofNat (k.pack tag row)) = .ok ⟨t, UInt32.ofNat row⟩ := by
    have value : k.pack tag row < 2 ^ 32 := by omega
    have number : row < 2 ^ 32 := Nat.lt_of_le_of_lt (k.le_pack tag row) value
    refine decode_eq_ok_iff_packed.2 ⟨tag, listed, ?_⟩
    rw [UInt32.toNat_ofNat_of_lt' value, UInt32.toNat_ofNat_of_lt' number,
      CodedKind.pack_eq_or small]
  rw [read_of_fits (narrow ▸ fits), narrow, field, split]
  rfl

/-- How a schema stores the references of a kind. -/
structure Packing (s : Schema) (k : CodedKind) : Prop where
  /-- A value refers to the table that its tag selects, and to the row above the tag. -/
  splits : ∀ (value row : UInt32) (t : TableId), decode k value = .ok ⟨t, row⟩ ↔
    k.targets[value.toNat % 2 ^ k.tagBits]? = some (some t) ∧ row.toNat = value.toNat >>> k.tagBits
  /-- The values that refer to a row are those that it is packed in. -/
  inverts : ∀ (value row : UInt32) (t : TableId), decode k value = .ok ⟨t, row⟩ ↔
    ∃ tag, k.targets[tag]? = some (some t) ∧ value.toNat = row.toNat <<< k.tagBits ||| tag
  injective : ∀ value value' i, decode k value = .ok i → decode k value' = .ok i → value = value'
  fails : ∀ value e, decode k value = .error e ↔
    e = .malformed (.codedTag (value.toNat % 2 ^ k.tagBits) k value.toNat) ∧
      (k.targets.length ≤ value.toNat % 2 ^ k.tagBits ∨
        k.targets[value.toNat % 2 ^ k.tagBits]? = some none)
  /-- A column has two bytes or four, and two exactly if all rows there are fit in them. -/
  width : s.coded k = 2 ∨ s.coded k = 4
  narrow : s.coded k = 2 ↔ ∀ (tag : Nat) (t : TableId), k.targets[tag]? = some (some t) →
    ∀ row ≤ s.rows t, row <<< k.tagBits ||| tag < 2 ^ 16
  /-- A column takes the bytes of its width, also where its tag selects no table. -/
  takes : ∀ data pos, CodedIndex.read s k ⟨data, pos⟩ =
    if pos + s.coded k ≤ data.size then
      ofExcept (decode k (UInt32.ofNat (data.leNat pos (s.coded k)))) ⟨data, pos + s.coded k⟩
    else .error (.outOfBounds pos (s.coded k) data.size) ⟨data, pos⟩
  /-- No row that a table has is out of reach of a column of two bytes. -/
  reaches : s.coded k = 2 → ∀ (tag : Nat) (t : TableId), k.targets[tag]? = some (some t) →
    ∀ row ≤ s.rows t, ∀ before after : List UInt8,
      let data := (before ++ Bytes.leBytes 2 (row <<< k.tagBits ||| tag) ++ after).toArray
      CodedIndex.read s k ⟨data, before.length⟩ =
        .ok ⟨t, UInt32.ofNat row⟩ ⟨data, before.length + 2⟩

/--
**Splitting inverts packing.** For each kind of coded index and each schema,
splitting a value gives the table and the row that were packed in it, no two
values give the same, and it fails exactly at a tag that selects no table. A
column has two bytes exactly if every row of its tables can be packed in 16
bits, is read from just the bytes of its width, and reaches all these rows.
-/
theorem decode_inverts_packing (s : Schema) (k : CodedKind) : Packing s k where
  splits value row t := by rw [decode_eq_ok, Nat.shiftRight_eq_div_pow]
  inverts _ _ _ := decode_eq_ok_iff_packed
  injective _ _ _ := decode_injective
  fails _ _ := decode_eq_error
  width := by
    unfold Schema.coded
    cases s.isWideCoded k <;> decide
  narrow := Schema.coded_eq_two_iff
  takes data pos := by
    split
    · next fits => exact read_of_fits fits
    · next lacks => exact read_of_lacks (Nat.not_le.1 lacks)
  reaches narrow _ _ listed row inside _ _ :=
    read_of_row narrow listed (Schema.coded_eq_two_iff.1 narrow _ _ listed row inside) rfl

/-- A module with as many references to other modules as a narrow resolution scope can reach. -/
def manyReferences : Schema := .ofCounts 0 ((Array.replicate 45 0).set! 0x23 0x3FFF)

/--
Two bytes reach the last of `0x3FFF` references to modules, and one row more takes
four; the value 3 has a tag that no base of a type can have.
-/
theorem decode_inverts_packing_manyReferences :
    manyReferences.coded .resolutionScope = 2 ∧
    (Schema.ofCounts 0 ((Array.replicate 45 0).set! 0x23 0x4000)).coded .resolutionScope = 4 ∧
    CodedIndex.read manyReferences .resolutionScope ⟨#[0xFE, 0xFF], 0⟩ =
      .ok ⟨.assemblyRef, 0x3FFF⟩ ⟨#[0xFE, 0xFF], 2⟩ ∧
    decode .typeDefOrRef 3 = .error (.malformed (.codedTag 3 .typeDefOrRef 3)) := by
  have narrow : manyReferences.coded .resolutionScope = 2 := by decide +kernel
  have rows : 0x3FFF ≤ manyReferences.rows .assemblyRef := by decide +kernel
  have scope := decode_inverts_packing manyReferences .resolutionScope
  have base := decode_inverts_packing manyReferences .typeDefOrRef
  exact ⟨narrow, by decide +kernel, scope.reaches narrow 2 .assemblyRef rfl 0x3FFF rows [] [],
    (base.fails 3 _).2 ⟨rfl, .inl (by decide)⟩⟩

end CodedIndex

end ManagedImage
