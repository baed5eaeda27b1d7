/-
The stored form of a row. The columns of a row are numbers in fields of certain widths
that stand one behind the other, a coded index as its packed form
(`StoredColumns`). The size of a row and the reading of its columns are two
descriptions of this form, and this module shows that they agree with it and so with
each other: a row is read exactly if its bytes are there and the tag of its coded column
selects a table, the reading passes over these bytes and no other, and the columns
written at their widths are the bytes again (`Row.reads_stored_form`).
-/
import Mathlib.Algebra.Ring.Nat
import ManagedImage.Proofs.CodedIndexes

namespace ManagedImage

open Reader

/-! ## Numbers one behind the other -/

namespace Bytes

/-- The numbers in fields of the given widths, one behind the other from a position on. -/
def numbersAt (data : Bytes) : Nat → List Nat → List Nat
  | _, [] => []
  | pos, width :: later => data.leNat pos width :: numbersAt data (pos + width) later

/-- Numbers written in fields of the given widths, one behind the other. -/
def ofNumbers : List Nat → List Nat → List UInt8
  | width :: widths, number :: numbers => leBytes width number ++ ofNumbers widths numbers
  | _, _ => []

variable {data : Bytes} {pos n : Nat} {widths : List Nat}

theorem capacity_width_le (wide : Bool) : capacity (Schema.width wide) ≤ 2 ^ 32 := by
  cases wide <;> decide

theorem leBytes_leNat (fits : pos + n ≤ data.size) :
    leBytes n (data.leNat pos n) = (data.extract pos (pos + n)).toList := by
  induction n generalizing pos with
  | zero => simp [leBytes]
  | succ n ih =>
    have low : (data.getD pos 0).toNat < 256 := UInt8.toNat_lt _
    have head : data.leNat pos (n + 1) % 256 = (data.getD pos 0).toNat := by
      rw [leNat_succ]
      omega
    have tail : data.leNat pos (n + 1) / 256 = data.leNat (pos + 1) n := by
      rw [leNat_succ]
      omega
    have first : data.extract pos (pos + 1) = #[data.getD pos 0] := by
      rw [Array.extract_succ_right (by omega) (by omega), Array.getD_eq_getD_getElem?,
        Array.getElem?_eq_getElem (by omega), Array.extract_eq_empty_of_le (Nat.min_le_left ..)]
      rfl
    have split := @Array.extract_append_extract _ data pos (pos + 1) (pos + 1 + n)
    rw [Nat.min_eq_left (by omega), Nat.max_eq_right (by omega), first] at split
    rw [leBytes, head, tail, ih (by omega), UInt8.ofNat_toNat, Nat.add_comm n 1, ← Nat.add_assoc,
      ← split]
    simp

theorem ofNumbers_numbersAt (fits : pos + widths.sum ≤ data.size) :
    ofNumbers widths (data.numbersAt pos widths) =
      (data.extract pos (pos + widths.sum)).toList := by
  induction widths generalizing pos with
  | nil => simp [ofNumbers]
  | cons width later ih =>
    rw [List.sum_cons, ← Nat.add_assoc] at fits ⊢
    rw [numbersAt, ofNumbers, leBytes_leNat (by omega), ih fits, ← Array.toList_append,
      Array.extract_append_extract]
    congr <;> omega

end Bytes

/-- The number that a coded index is stored as. -/
def CodedIndex.packed (k : CodedKind) (i : CodedIndex) : Nat := k.pack (k.tag i.table) i.row.toNat

namespace Reader

variable {α β : Type} {front widths : List Nat} {numbers : β → List Nat}

/-- A success answers the number in the next `n` bytes and passes over them. -/
class Field (r : Reader α) (number : outParam (α → Nat)) (n : outParam Nat) : Prop where
  stands : ∀ {c c' : Cursor} {v : α}, r c = .ok v c' →
    c.pos + n ≤ c.data.size ∧ c' = { c with pos := c.pos + n } ∧ number v = c.data.leNat c.pos n

theorem Field.of_nat {g : Nat → α} {number : α → Nat} {n : Nat}
    (same : ∀ value < Bytes.capacity n, number (g value) = value) :
    Field (nat n >>= fun value => pure (g value)) number n where
  stands h := by
    obtain ⟨_, _, field, answer⟩ := bind_eq_ok.1 h
    obtain ⟨fits, rfl, rfl⟩ := nat_keeps field
    obtain ⟨rfl, rfl⟩ := pure_eq_ok.1 answer
    exact ⟨fits, rfl, same _ (Bytes.leNat_lt ..)⟩

instance : Field u16 UInt16.toNat 2 := .of_nat fun _ => UInt16.toNat_ofNat_of_lt

instance : Field u32 UInt32.toNat 4 := .of_nat fun _ => UInt32.toNat_ofNat_of_lt'

instance (large : Bool) : Field (index large) UInt32.toNat (Schema.width large) :=
  .of_nat fun _ small =>
    UInt32.toNat_ofNat_of_lt' (Nat.lt_of_lt_of_le small (Bytes.capacity_width_le large))

instance {s : Schema} {k : CodedKind} :
    Field (CodedIndex.read s k) (CodedIndex.packed k) (s.coded k) where
  stands {c c' i} h := by
    obtain ⟨fits, moved, split⟩ := CodedIndex.read_eq_ok.1 h
    obtain ⟨tag, listed, packed⟩ := CodedIndex.decode_eq_ok_iff_packed.1 split
    have small := Nat.lt_of_lt_of_le (c.data.leNat_lt c.pos (s.coded k))
      (Bytes.capacity_width_le (s.isWideCoded k))
    rw [UInt32.toNat_ofNat_of_lt' small,
      ← CodedKind.pack_eq_or (CodedKind.lt_of_listed listed)] at packed
    rw [CodedIndex.packed, CodedKind.tag_of_listed listed]
    exact ⟨fits, moved, packed.symm⟩

/--
A success answers what has the numbers of `front` and behind them those in the next
fields of the given widths, all of which are there.
-/
structure Stores (numbers : β → List Nat) (front widths : List Nat) (r : Reader β) : Prop where
  numbered : ∀ {c c' : Cursor} {v : β}, r c = .ok v c' →
    numbers v = front ++ c.data.numbersAt c.pos widths
  fits : ∀ {c c' : Cursor} {v : β}, r c = .ok v c' → widths ≠ [] →
    c.pos + widths.sum ≤ c.data.size

namespace Stores

theorem answer {v : β} (same : numbers v = front) : Stores numbers front [] (pure v) where
  numbered h := by
    obtain ⟨rfl, -⟩ := pure_eq_ok.1 h
    rw [same, Bytes.numbersAt, List.append_nil]
  fits _ columns := absurd rfl columns

/-- One more field in front. -/
theorem field {r : Reader α} {f : α → Reader β} {number : α → Nat} {n : Nat} [Field r number n]
    (later : ∀ a, Stores numbers (front ++ [number a]) widths (f a)) :
    Stores numbers front (n :: widths) (r >>= f) where
  numbered h := by
    obtain ⟨a, c₁, first, rest⟩ := bind_eq_ok.1 h
    obtain ⟨-, rfl, there⟩ := Field.stands first
    rw [(later a).numbered rest, there, Bytes.numbersAt, List.append_assoc, List.singleton_append]
  fits h _ := by
    obtain ⟨a, c₁, first, rest⟩ := bind_eq_ok.1 h
    obtain ⟨inside, rfl, -⟩ := Field.stands first
    rw [List.sum_cons, ← Nat.add_assoc]
    rcases widths with _ | ⟨next, others⟩
    · exact inside
    · exact (later a).fits rest nofun

end Stores

end Reader

/-! ## The form of a row -/

/-- The columns of a row as numbers in fields. -/
class StoredColumns (γ : Type) [Columns γ] where
  /-- How wide each column is. -/
  widths : Schema → List Nat
  /-- The number in each column, a coded index in its packed form. -/
  numbers : γ → List Nat
  /-- The kind of the coded column and where in the row it begins, if there is one. -/
  coded? : Schema → Option (CodedKind × Nat)

instance : StoredColumns ModuleColumns where
  widths s := [2, s.strings, s.guids, s.guids, s.guids]
  numbers c := [c.generation.toNat, c.name.toNat, c.versionId.toNat, c.editId.toNat,
    c.editBaseId.toNat]
  coded? _ := none

instance : StoredColumns TypeRefColumns where
  widths s := [s.coded .resolutionScope, s.strings, s.strings]
  numbers c := [c.scope.packed .resolutionScope, c.name.toNat, c.space.toNat]
  coded? _ := some (.resolutionScope, 0)

instance : StoredColumns TypeDefColumns where
  widths s := [4, s.strings, s.strings, s.coded .typeDefOrRef, s.index .field, s.index .methodDef]
  numbers c := [c.flags.toNat, c.name.toNat, c.space.toNat, c.base.packed .typeDefOrRef,
    c.fieldList.toNat, c.methodList.toNat]
  coded? s := some (.typeDefOrRef, 4 + 2 * s.strings)

instance : StoredColumns MethodDefColumns where
  widths s := [4, 2, 2, s.strings, s.blobs, s.index .param]
  numbers c := [c.rva.toNat, c.implFlags.toNat, c.flags.toNat, c.name.toNat, c.signature.toNat,
    c.paramList.toNat]
  coded? _ := none

instance : StoredColumns ParamColumns where
  widths s := [2, 2, s.strings]
  numbers c := [c.flags.toNat, c.sequence.toNat, c.name.toNat]
  coded? _ := none

/-- The tag of the coded column of the row at a position selects a table, if the row has one. -/
def StoredColumns.TagSelects (γ : Type) [Columns γ] [StoredColumns γ] (s : Schema) (data : Bytes)
    (pos : Nat) : Prop :=
  match StoredColumns.coded? γ s with
  | some (kind, start) => (kind.target? (s.tagAt kind data (pos + start))).isSome
  | none => True

/-- Columns are read and written in their stored form. -/
class LawfulStored (γ : Type) [Columns γ] [StoredColumns γ] : Prop extends LawfulColumns γ where
  size : ∀ s, (StoredColumns.widths γ s).sum = s.rowSize (Columns.table γ)
  encodes : ∀ s (columns : γ), Columns.encode s columns =
    Bytes.ofNumbers (StoredColumns.widths γ s) (StoredColumns.numbers columns)
  stores : ∀ s, Stores StoredColumns.numbers [] (StoredColumns.widths γ s)
    (Columns.read s : Reader γ)
  succeeds : ∀ {s data pos}, pos + s.rowSize (Columns.table γ) ≤ data.size →
    ((∃ columns c', (Columns.read s : Reader γ) ⟨data, pos⟩ = .ok columns c') ↔
      StoredColumns.TagSelects γ s data pos)

/-- Columns that are read wherever their bytes are there have no tag that selects nothing. -/
theorem succeeds_of_total {γ : Type} [Columns γ] [StoredColumns γ] [TotalColumns γ] {s : Schema}
    {data : Bytes} {pos : Nat} (selects : StoredColumns.TagSelects γ s data pos)
    (fits : pos + s.rowSize (Columns.table γ) ≤ data.size) :
    (∃ columns c', (Columns.read s : Reader γ) ⟨data, pos⟩ = .ok columns c') ↔
      StoredColumns.TagSelects γ s data pos := by
  obtain ⟨columns, read⟩ := Total.succeeds (r := (Columns.read s : Reader γ)) ⟨data, pos⟩ fits
  exact ⟨fun _ => selects, fun _ => ⟨columns, _, read⟩⟩

instance : LawfulStored ModuleColumns where
  size s := by simp [StoredColumns.widths, Schema.rowSize, Columns.table]; omega
  encodes s c := by
    simp [Columns.encode, StoredColumns.widths, StoredColumns.numbers, Bytes.ofNumbers]
  stores s := .field fun _ => .field fun _ => .field fun _ => .field fun _ => .field fun _ =>
    .answer rfl
  succeeds := succeeds_of_total trivial

instance : LawfulStored TypeRefColumns where
  size s := by simp [StoredColumns.widths, Schema.rowSize, Columns.table]; omega
  encodes s c := by
    simp [Columns.encode, StoredColumns.widths, StoredColumns.numbers, Bytes.ofNumbers,
      CodedIndex.encode, CodedIndex.packed]
  stores s := .field fun _ => .field fun _ => .field fun _ => .answer rfl
  succeeds {s data pos} fits := by
    have every : ∀ tag < 4, (CodedKind.target? .resolutionScope tag).isSome := by decide
    have selects : StoredColumns.TagSelects TypeRefColumns s data pos :=
      every _ (Nat.mod_lt _ (by decide))
    exact succeeds_of_total selects fits

instance : LawfulStored TypeDefColumns where
  size s := by simp [StoredColumns.widths, Schema.rowSize, Columns.table]; omega
  encodes s c := by
    simp [Columns.encode, StoredColumns.widths, StoredColumns.numbers, Bytes.ofNumbers,
      CodedIndex.encode, CodedIndex.packed]
  stores s := .field fun _ => .field fun _ => .field fun _ => .field fun _ => .field fun _ =>
    .field fun _ => .answer rfl
  succeeds {s data pos} fits := by
    have reserved : ∀ tag < 4, (CodedKind.target? .typeDefOrRef tag).isSome ↔ tag ≠ 3 := by decide
    rw [TypeDefColumns.read_succeeds_iff fits, TypeDefColumns.baseTag, Nat.add_assoc]
    exact (reserved _ (Nat.mod_lt _ (by decide))).symm

instance : LawfulStored MethodDefColumns where
  size s := by simp [StoredColumns.widths, Schema.rowSize, Columns.table]; omega
  encodes s c := by
    simp [Columns.encode, StoredColumns.widths, StoredColumns.numbers, Bytes.ofNumbers]
  stores s := .field fun _ => .field fun _ => .field fun _ => .field fun _ => .field fun _ =>
    .field fun _ => .answer rfl
  succeeds := succeeds_of_total trivial

instance : LawfulStored ParamColumns where
  size s := by simp [StoredColumns.widths, Schema.rowSize, Columns.table]; omega
  encodes s c := by
    simp [Columns.encode, StoredColumns.widths, StoredColumns.numbers, Bytes.ofNumbers]
  stores s := .field fun _ => .field fun _ => .field fun _ => .answer rfl
  succeeds := succeeds_of_total trivial

namespace Row

section

variable {γ : Type} [Columns γ] {s : Schema} {rid : Nat} {data : Bytes} {pos : Nat} {row : Row γ}
  {c' : Cursor}

theorem read_eq_ok : (Row.read s rid : Reader (Row γ)) ⟨data, pos⟩ = .ok row c' ↔
    Columns.read s ⟨data, pos⟩ = .ok row.columns c' ∧ row.rid = rid ∧ row.offset = pos := by
  constructor
  · intro h
    obtain ⟨columns, read, rfl⟩ := map_eq_ok.1 h
    exact ⟨read, rfl, rfl⟩
  · rintro ⟨read, rfl, rfl⟩
    exact map_eq_ok.2 ⟨row.columns, read, rfl⟩

theorem read_succeeds_iff : (∃ row c', (Row.read s rid : Reader (Row γ)) ⟨data, pos⟩ = .ok row c') ↔
    ∃ columns c', (Columns.read s : Reader γ) ⟨data, pos⟩ = .ok columns c' := by
  constructor
  · rintro ⟨row, c', h⟩
    exact ⟨row.columns, c', (read_eq_ok.1 h).1⟩
  · rintro ⟨columns, c', h⟩
    exact ⟨⟨rid, pos, columns⟩, c', read_eq_ok.2 ⟨h, rfl, rfl⟩⟩

end

variable (γ : Type) [Columns γ] [StoredColumns γ]

/-- How the rows of a table are stored under a schema. -/
structure StoredForm (s : Schema) : Prop where
  size : (StoredColumns.widths γ s).sum = s.rowSize (Columns.table γ)
  /-- A row is read exactly if its bytes are there and its coded column selects a table. -/
  succeeds : ∀ rid data pos,
    (∃ row c', (Row.read s rid : Reader (Row γ)) ⟨data, pos⟩ = .ok row c') ↔
      pos + s.rowSize (Columns.table γ) ≤ data.size ∧ StoredColumns.TagSelects γ s data pos
  takes : ∀ rid data pos row c', (Row.read s rid : Reader (Row γ)) ⟨data, pos⟩ = .ok row c' →
    c' = ⟨data, pos + s.rowSize (Columns.table γ)⟩ ∧ row.rid = rid ∧ row.offset = pos
  /-- The columns are the numbers that stand there in fields of the widths of the schema. -/
  reads : ∀ rid data pos row c', (Row.read s rid : Reader (Row γ)) ⟨data, pos⟩ = .ok row c' →
    StoredColumns.numbers row.columns = data.numbersAt pos (StoredColumns.widths γ s)
  /-- Columns are written as their numbers at these widths. -/
  written : ∀ columns : γ, Columns.encode s columns =
    Bytes.ofNumbers (StoredColumns.widths γ s) (StoredColumns.numbers columns)
  /-- What was read and is written again is what stood there. -/
  writes : ∀ rid data pos row c', (Row.read s rid : Reader (Row γ)) ⟨data, pos⟩ = .ok row c' →
    Columns.encode s row.columns = (data.extract pos (pos + s.rowSize (Columns.table γ))).toList

section

variable {γ} [LawfulStored γ] {s : Schema} {data : Bytes} {pos : Nat} {c' : Cursor}

theorem fits_of_read {columns : γ} (h : Columns.read s ⟨data, pos⟩ = .ok columns c') :
    pos + s.rowSize (Columns.table γ) ≤ data.size := by
  have size : (StoredColumns.widths γ s).sum = s.rowSize (Columns.table γ) := LawfulStored.size s
  have columns : StoredColumns.widths γ s ≠ [] := by
    intro none
    have large := s.rowSize_pos (Columns.table γ)
    rw [← size, none] at large
    exact absurd large (Nat.lt_irrefl 0)
  have fits := (LawfulStored.stores s).fits h columns
  rwa [size] at fits

theorem storedForm_of_lawful (s : Schema) : StoredForm γ s where
  size := LawfulStored.size s
  succeeds rid data pos := by
    rw [read_succeeds_iff]
    constructor
    · rintro ⟨columns, c', h⟩
      have fits := fits_of_read h
      exact ⟨fits, (LawfulStored.succeeds fits).1 ⟨columns, c', h⟩⟩
    · rintro ⟨fits, selects⟩
      exact (LawfulStored.succeeds fits).2 selects
  takes rid data pos row c' h := by
    obtain ⟨read, number, place⟩ := read_eq_ok.1 h
    exact ⟨Window.moves read, number, place⟩
  reads rid data pos row c' h := (LawfulStored.stores s).numbered (read_eq_ok.1 h).1
  written := LawfulStored.encodes s
  writes rid data pos row c' h := by
    obtain ⟨read, -⟩ := read_eq_ok.1 h
    have numbered := (LawfulStored.stores s).numbered read
    have fits := fits_of_read read
    rw [← LawfulStored.size] at fits ⊢
    rw [LawfulStored.encodes, numbered]
    exact Bytes.ofNumbers_numbersAt fits

end

/-- The size of a row, the reading of it and the writing of it describe one form, in every table. -/
theorem reads_stored_form (s : Schema) :
    StoredForm ModuleColumns s ∧ StoredForm TypeRefColumns s ∧ StoredForm TypeDefColumns s ∧
      StoredForm MethodDefColumns s ∧ StoredForm ParamColumns s :=
  ⟨storedForm_of_lawful s, storedForm_of_lawful s, storedForm_of_lawful s, storedForm_of_lawful s,
    storedForm_of_lawful s⟩

/-- A type whose base is the first reference to a type, behind one other byte. -/
def derivedType : Bytes := #[0xEE, 1, 0, 16, 0, 10, 0, 18, 0, 5, 0, 2, 0, 1, 0]

/--
With narrow columns the row takes fourteen bytes; it is written again as they were, and
is not read where its base has the reserved tag or a byte is missing.
-/
theorem reads_stored_form_derivedType :
    (∃ row, Row.read (.ofCounts 0 #[]) 1 ⟨derivedType, 1⟩ = .ok row ⟨derivedType, 15⟩ ∧
      row.columns = (⟨0x100001, 10, 18, ⟨.typeRef, 1⟩, 2, 1⟩ : TypeDefColumns) ∧
      Columns.encode (.ofCounts 0 #[]) row.columns = (derivedType.extract 1 15).toList) ∧
    (¬ ∃ (row : Row TypeDefColumns) (c' : Cursor),
      Row.read (.ofCounts 0 #[]) 1 ⟨derivedType.set! 9 7, 1⟩ = .ok row c') ∧
    ¬ ∃ (row : Row TypeDefColumns) (c' : Cursor),
      Row.read (.ofCounts 0 #[]) 1 ⟨derivedType.pop, 1⟩ = .ok row c' := by
  obtain ⟨-, -, types, -, -⟩ := reads_stored_form (.ofCounts 0 #[])
  refine ⟨⟨⟨1, 1, ⟨0x100001, 10, 18, ⟨.typeRef, 1⟩, 2, 1⟩⟩, ?_, rfl, ?_⟩, ?_, ?_⟩
  · rfl
  · exact types.writes 1 derivedType 1 ⟨1, 1, ⟨0x100001, 10, 18, ⟨.typeRef, 1⟩, 2, 1⟩⟩ _ rfl
  · rw [types.succeeds]
    have reserved : ¬ (CodedKind.target? .typeDefOrRef 3).isSome := by decide
    exact fun h => reserved h.2
  · rw [types.succeeds]
    exact fun h => absurd h.1 (by decide)

end Row

end ManagedImage
