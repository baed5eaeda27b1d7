/-
The stream of tables on the machine. The widths of the columns come from shifts
by the count of tag bits and from an array with an item for each table, the size
of a row is a sum in 32 bits, the tables are laid out by products and sums that
are tested, and behind each row the program asserts that the row took as many
bytes as its table says. All of this rests on two facts: there is a row count for
each of the 45 tables (`Schema.Full`), and the columns of a row are as wide as
its schema says (`LawfulColumns`).
-/
import Mathlib.Data.Nat.Bitwise
import Mathlib.Order.MinMax
import ManagedImage.Proofs.Machine.Readings
import ManagedImage.Proofs.TableLayout

namespace ManagedImage

/-- There is a row count for each table. -/
class Schema.Full (s : Schema) : Prop where
  size_counts : s.counts.size = 45

instance (h : TablesHeader) : h.schema.Full where
  size_counts := by
    rw [TablesHeader.schema, Schema.ofCounts, TablesHeader.rowCounts, List.size_toArray, List.length_map]
    rfl

namespace Machine

open Programmed (program faithful keeps)

variable {s : Schema}

/-! ## Widths -/

/-- The count of rows of a table. -/
def rows (s : Schema) (t : TableId) : Run Nat := do return (← fetch s.counts.toList t.toNat).toNat

theorem rows_eq [s.Full] (t : TableId) : rows s t = .ok (s.rows t) := by
  have inside : t.toNat < s.counts.size := by rw [Schema.Full.size_counts]; exact t.toNat_lt
  have there : s.counts.toList[t.toNat]? = some (s.counts.getD t.toNat 0) := by
    rw [Array.getElem?_toList, Array.getD_eq_getD_getElem?, Array.getElem?_eq_getElem inside,
      Option.getD_some]
  rw [rows, fetch_eq there]
  rfl

/-- Whether an index into a table is wide. -/
def isWide (s : Schema) (t : TableId) : Run Bool := do return 0xFFFF < (← rows s t)

theorem isWide_eq [s.Full] (t : TableId) : isWide s t = .ok (s.isWide t) := by
  rw [isWide, rows_eq]
  rfl

/-- How many of 32 bits are zero above the highest that is set. -/
def leadingZeros (n : Nat) : Nat := if n = 0 then 32 else 31 - n.log2

/-- The count of tag bits. -/
def tagBits (k : CodedKind) : Run Nat := do sub 32 (leadingZeros (← sub k.targets.length 1))

theorem tagBits_eq (k : CodedKind) : tagBits k = .ok k.tagBits := by cases k <;> rfl

/-- Whether a coded index is wide: the tag leaves too little room for the last row of some table. -/
def isWideCoded (s : Schema) (k : CodedKind) : Run Bool := do
  let room ← sub 16 (← tagBits k)
  let limit ← shiftUp 32 1 room
  let counts ← k.candidates.mapM (rows s)
  return ¬ counts.foldl max 0 < limit

theorem le_foldl_max {least bound : Nat} {counts : List Nat} :
    bound ≤ counts.foldl max least ↔ bound ≤ least ∨ ∃ n ∈ counts, bound ≤ n := by
  induction counts generalizing least with
  | nil => simp
  | cons n counts ih =>
    rw [List.foldl_cons, ih, le_max_iff, List.exists_mem_cons_iff, or_assoc]

/-- A row has no room beside the tag in 16 bits if it is not below what the other bits can hold. -/
theorem room_le_iff {bits n : Nat} (few : bits ≤ 16) : 2 ^ (16 - bits) ≤ n ↔ 0x10000 ≤ n * 2 ^ bits := by
  have whole : 0x10000 = 2 ^ (16 - bits) * 2 ^ bits := by
    rw [← Nat.pow_add, Nat.sub_add_cancel few]
  rw [whole]
  exact (Nat.mul_le_mul_right_iff (Nat.two_pow_pos bits)).symm

theorem isWideCoded_eq [s.Full] (k : CodedKind) : isWideCoded s k = .ok (s.isWideCoded k) := by
  have few := k.tagBits_le
  have small : 2 ^ (16 - k.tagBits) < 2 ^ 32 := Nat.pow_lt_pow_right (by decide) (by omega)
  have positive := Nat.two_pow_pos (16 - k.tagBits)
  rw [isWideCoded, tagBits_eq, ok_bind, sub_eq (by omega), ok_bind,
    shiftUp_eq (by omega) (by rw [Nat.one_shiftLeft]; exact small), ok_bind,
    mapM_ok fun t _ => rows_eq t, ok_bind, Nat.one_shiftLeft]
  refine congrArg Except.ok ((decide_eq_decide.2 ?_).trans List.any_eq.symm)
  rw [Nat.not_lt, le_foldl_max, or_iff_right (by omega)]
  simp only [List.mem_map, exists_exists_and_eq_and, decide_eq_true_eq, CodedKind.tags,
    Nat.one_shiftLeft, room_le_iff (Nat.le_trans few (by decide : 5 ≤ 16))]

/-! ## Coded indexes -/

/-- Splits a packed reference. The token of the row it refers to is worked out as well. -/
def decode (kind : CodedKind) (value : UInt32) : Run CodedIndex := do
  let bits ← tagBits kind
  let mask ← sub (← shiftUp 32 1 bits) 1
  let tag := value.toNat &&& mask
  let row ← shiftDown 32 value.toNat bits
  match kind.target? tag with
  | some table =>
    let _selector ← shiftUp 32 table.toNat 24
    return ⟨table, UInt32.ofNat row⟩
  | none => refuse (.malformed (.codedTag tag kind value.toNat))

/-- The number of a table fits in the top byte of a token. -/
theorem selector_eq (t : TableId) : shiftUp 32 t.toNat 24 = .ok (t.toNat <<< 24) := by
  have few := t.toNat_lt
  exact shiftUp_eq (by decide) (by rw [Nat.shiftLeft_eq]; omega)

theorem decode_eq (kind : CodedKind) (value : UInt32) :
    decode kind value = Run.of (CodedIndex.decode kind value) := by
  have few := kind.tagBits_le
  have small : 2 ^ kind.tagBits < 2 ^ 32 := Nat.pow_lt_pow_right (by decide) (by omega)
  have positive := Nat.two_pow_pos kind.tagBits
  rw [decode, tagBits_eq, ok_bind,
    shiftUp_eq (by omega) (by rw [Nat.one_shiftLeft]; exact small), ok_bind, Nat.one_shiftLeft,
    sub_eq positive, ok_bind, Nat.and_two_pow_sub_one_eq_mod, shiftDown_eq (by omega), ok_bind,
    Nat.shiftRight_eq_div_pow, CodedIndex.decode, CodedKind.tags, Nat.one_shiftLeft]
  cases kind.target? (value.toNat % 2 ^ kind.tagBits) with
  | none => rfl
  | some table =>
    dsimp only
    rw [selector_eq]
    rfl

/-! ## Columns -/

/-- An index into a table. -/
instance [s.Full] (t : TableId) : Programmed (Reader.index (s.isWide t)) :=
  computed (isWide s t) (isWide_eq t) Reader.index

instance [s.Full] (kind : CodedKind) : Programmed (CodedIndex.read s kind) :=
  have (value : UInt32) : Programmed (Reader.ofExcept (CodedIndex.decode kind value)) :=
    computing _ (decode_eq kind value)
  computed (isWideCoded s kind) (isWideCoded_eq kind) fun wide => (do
    let value ← Reader.index wide
    Reader.ofExcept (CodedIndex.decode kind value) : Reader CodedIndex)

/-- Columns with a reading, given a row count for each table. -/
class ProgrammedColumns (γ : Type) [Columns γ] where
  columns : ∀ (s : Schema) [s.Full], Programmed (Columns.read s : Reader γ)

instance {γ : Type} [Columns γ] [ProgrammedColumns γ] [s.Full] :
    Programmed (Columns.read s : Reader γ) := ProgrammedColumns.columns s

instance : ProgrammedColumns ModuleColumns where
  columns s := by dsimp only [Columns.read]; infer_instance

instance : ProgrammedColumns TypeRefColumns where
  columns s := by dsimp only [Columns.read]; infer_instance

instance : ProgrammedColumns TypeDefColumns where
  columns s := by dsimp only [Columns.read]; infer_instance

instance : ProgrammedColumns MethodDefColumns where
  columns s := by dsimp only [Columns.read]; infer_instance

instance : ProgrammedColumns ParamColumns where
  columns s := by dsimp only [Columns.read]; infer_instance

/- The reading of columns is that of each of them. -/
example [s.Full] : program (Columns.read s : Reader MethodDefColumns) = (do
    let rva ← program Reader.u32
    let implFlags ← program Reader.u16
    let flags ← program Reader.u16
    let name ← program (Reader.index s.wideStrings)
    let signature ← program (Reader.index s.wideBlobs)
    let paramList ← (do program (Reader.index (← isWide s .param)))
    return { rva, implFlags, flags, name, signature, paramList }) := rfl

/-! ## The size of a row -/

/-- What the size of a row is the sum of. -/
inductive Part where
  | fixed (size : Fin 17)
  | strings
  | guids
  | blobs
  | index (t : TableId)
  | coded (k : CodedKind)
  /-- Twice the width of an index. -/
  | indexes (t : TableId)
  /-- Twice the width of a coded index. -/
  | codeds (k : CodedKind)
deriving DecidableEq

namespace Part

/-- The size of a part, with its multiplication. -/
def run (s : Schema) : Part → Run Nat
  | fixed size => return size
  | strings => return s.strings
  | guids => return s.guids
  | blobs => return s.blobs
  | index t => do return Schema.width (← isWide s t)
  | coded k => do return Schema.width (← isWideCoded s k)
  | indexes t => do mul 32 2 (Schema.width (← isWide s t))
  | codeds k => do mul 32 2 (Schema.width (← isWideCoded s k))

/-- The size of a part. -/
def size (s : Schema) : Part → Nat
  | fixed size => size
  | strings => s.strings
  | guids => s.guids
  | blobs => s.blobs
  | index t => s.index t
  | coded k => s.coded k
  | indexes t => 2 * s.index t
  | codeds k => 2 * s.coded k

theorem size_le (p : Part) : p.size s ≤ 16 := by
  have narrow : ∀ wide, Schema.width wide ≤ 4 := by decide
  cases p with
  | fixed size => exact Nat.le_of_lt_succ size.isLt
  | strings => exact Nat.le_trans (narrow _) (by decide)
  | guids => exact Nat.le_trans (narrow _) (by decide)
  | blobs => exact Nat.le_trans (narrow _) (by decide)
  | index t => exact Nat.le_trans (narrow _) (by decide)
  | coded k => exact Nat.le_trans (narrow _) (by decide)
  | indexes t => exact Nat.le_trans (Nat.mul_le_mul_left 2 (narrow _)) (by decide)
  | codeds k => exact Nat.le_trans (Nat.mul_le_mul_left 2 (narrow _)) (by decide)

theorem run_eq [s.Full] (p : Part) : p.run s = .ok (p.size s) := by
  have narrow : ∀ wide, 2 * Schema.width wide < 2 ^ 32 := by decide
  cases p with
  | fixed size => rfl
  | strings => rfl
  | guids => rfl
  | blobs => rfl
  | index t => rw [run, isWide_eq]; rfl
  | coded k => rw [run, isWideCoded_eq]; rfl
  | indexes t => rw [run, isWide_eq, ok_bind, mul_eq (narrow _)]; rfl
  | codeds k => rw [run, isWideCoded_eq, ok_bind, mul_eq (narrow _)]; rfl

end Part

/-- The parts of a row. -/
def parts : TableId → List Part
  | .module => [.fixed 2, .strings, .guids, .guids, .guids]
  | .typeRef => [.coded .resolutionScope, .strings, .strings]
  | .typeDef =>
    [.fixed 4, .strings, .strings, .coded .typeDefOrRef, .index .field, .index .methodDef]
  | .fieldPtr => [.index .field]
  | .field => [.fixed 2, .strings, .blobs]
  | .methodPtr => [.index .methodDef]
  | .methodDef => [.fixed 4, .fixed 2, .fixed 2, .strings, .blobs, .index .param]
  | .paramPtr => [.index .param]
  | .param => [.fixed 2, .fixed 2, .strings]
  | .interfaceImpl => [.index .typeDef, .coded .typeDefOrRef]
  | .memberRef => [.coded .memberRefParent, .strings, .blobs]
  | .constant => [.fixed 2, .coded .hasConstant, .blobs]
  | .customAttribute => [.coded .hasCustomAttribute, .coded .customAttributeType, .blobs]
  | .fieldMarshal => [.coded .hasFieldMarshal, .blobs]
  | .declSecurity => [.fixed 2, .coded .hasDeclSecurity, .blobs]
  | .classLayout => [.fixed 2, .fixed 4, .index .typeDef]
  | .fieldLayout => [.fixed 4, .index .field]
  | .standAloneSig => [.blobs]
  | .eventMap => [.index .typeDef, .index .event]
  | .eventPtr => [.index .event]
  | .event => [.fixed 2, .strings, .coded .typeDefOrRef]
  | .propertyMap => [.index .typeDef, .index .property]
  | .propertyPtr => [.index .property]
  | .property => [.fixed 2, .strings, .blobs]
  | .methodSemantics => [.fixed 2, .index .methodDef, .coded .hasSemantics]
  | .methodImpl => [.index .typeDef, .codeds .methodDefOrRef]
  | .moduleRef => [.strings]
  | .typeSpec => [.blobs]
  | .implMap => [.fixed 2, .coded .memberForwarded, .strings, .index .moduleRef]
  | .fieldRva => [.fixed 4, .index .field]
  | .encLog => [.fixed 8]
  | .encMap => [.fixed 4]
  | .assembly => [.fixed 4, .fixed 8, .fixed 4, .blobs, .strings, .strings]
  | .assemblyProcessor => [.fixed 4]
  | .assemblyOs => [.fixed 12]
  | .assemblyRef => [.fixed 8, .fixed 4, .blobs, .strings, .strings, .blobs]
  | .assemblyRefProcessor => [.fixed 4, .index .assemblyRef]
  | .assemblyRefOs => [.fixed 12, .index .assemblyRef]
  | .file => [.fixed 4, .strings, .blobs]
  | .exportedType => [.fixed 8, .strings, .strings, .coded .implementation]
  | .manifestResource => [.fixed 8, .strings, .coded .implementation]
  | .nestedClass => [.indexes .typeDef]
  | .genericParam => [.fixed 4, .coded .typeOrMethodDef, .strings]
  | .methodSpec => [.coded .methodDefOrRef, .blobs]
  | .genericParamConstraint => [.index .genericParam, .coded .typeDefOrRef]

/-- A sum of parts behind those already summed up. -/
def sumFrom (s : Schema) : Nat → List Part → Run Nat
  | n, [] => return n
  | n, part :: later => do sumFrom s (← add 32 n (← part.run s)) later

/-- The size of a row. -/
def rowSize (s : Schema) (t : TableId) : Run Nat := sumFrom s 0 (parts t)

theorem sumFrom_eq [s.Full] {n : Nat} {later : List Part} (few : n + 16 * later.length < 2 ^ 32) :
    sumFrom s n later = .ok (n + (later.map (Part.size s)).sum) := by
  induction later generalizing n with
  | nil => rfl
  | cons part later ih =>
    have small := part.size_le (s := s)
    rw [List.length_cons] at few
    rw [sumFrom, Part.run_eq, ok_bind, add_eq (by omega), ok_bind, ih (by omega), List.map_cons,
      List.sum_cons, Nat.add_assoc]

theorem sum_parts (t : TableId) : ((parts t).map (Part.size s)).sum = s.rowSize t := by
  cases t <;> simp [parts, Part.size, Schema.rowSize] <;> omega

theorem rowSize_eq [s.Full] (t : TableId) : rowSize s t = .ok (s.rowSize t) := by
  have few : ∀ t, (parts t).length ≤ 6 := by intro t; cases t <;> decide
  have few := few t
  rw [rowSize, sumFrom_eq (by omega), sum_parts, Nat.zero_add]

/-! ## Rows -/

instance {γ : Type} [Columns γ] [ProgrammedColumns γ] [s.Full] (rid : Nat) :
    Programmed (Row.read s rid : Reader (Row γ)) := by
  delta Row.read; infer_instance

/--
Reads `n` more rows of `size` bytes behind those already `seen`. The token of a
row is worked out on the way, and the program asserts the size of each row.
-/
def readRows {γ : Type} [Columns γ] [ProgrammedColumns γ] (s : Schema) [s.Full] (size : Nat) :
    Nat → Array (Row γ) → Reading (Array (Row γ))
  | 0, seen => return seen
  | n + 1, seen => do
    let start ← program Reader.position
    let _selector ← shiftUp 32 (Columns.table γ).toNat 24
    let row ← program (Row.read s (seen.size + 1) : Reader (Row γ))
    let taken ← sub (← program Reader.position) start
    demand (taken = size)
    readRows s size n (seen.push row)

/-- Reads a table of `count` rows. -/
def readTable (γ : Type) [Columns γ] [ProgrammedColumns γ] (s : Schema) [s.Full] (count : Nat) :
    Reading (Table γ) := do
  let size ← rowSize s (Columns.table γ)
  return ⟨← readRows s size count #[], size⟩

section Rows

variable {γ : Type} [Columns γ] [ProgrammedColumns γ] [LawfulColumns γ] [s.Full]

theorem readRows_faithful {n : Nat} {seen : Array (Row γ)} {c : Cursor} (sound : c.Addressable) :
    readRows s (s.rowSize (Columns.table γ)) n seen c = ended (Table.readRows s n seen c) := by
  induction n generalizing seen c with
  | zero => rfl
  | succ n ih =>
    have here : ∀ c, program Reader.position c = .ok c.pos c := fun _ => rfl
    rw [readRows, Table.readRows, Reader.bind_of_ok (here c), lift_bind (selector_eq _)]
    refine bind_program sound fun {row c'} read sound' => ?_
    -- A row takes as many bytes as its columns are wide.
    have moved : c'.pos = c.pos + s.rowSize (Columns.table γ) := by
      obtain ⟨columns, read, -⟩ := Reader.map_eq_ok.1 read
      rw [Reader.Window.moves read]
    rw [Reader.bind_of_ok (here c'), lift_bind (sub_eq (by omega)), lift_bind (demand_eq (by omega))]
    exact ih sound'

theorem readTable_faithful {count : Nat} {c : Cursor} (sound : c.Addressable) :
    readTable γ s count c = ended (Table.read γ s count c) := by
  rw [readTable, lift_bind (rowSize_eq _)]
  exact bind_ended (readRows_faithful sound) fun _ => rfl

end Rows

/-! ## The header -/

/-- Reads the row counts of the tables whose bits are set, out of the given ones. -/
def readCounts (valid : UInt64) : List Nat → Reading (List (TableId × UInt32))
  | [] => return []
  | number :: later => do
    let bit ← shiftUp 64 1 number
    if valid.toNat &&& bit = 0 then readCounts valid later
    else
      match TableId.ofNat? number with
      | none => throw (.refused (.unsupportedTable number))
      | some table =>
        let count ← program Reader.u32
        return (table, count) :: (← readCounts valid later)

theorem and_bit_eq_zero_iff (mask number : Nat) :
    mask &&& 2 ^ number = 0 ↔ mask.testBit number = false := by
  rw [Nat.and_two_pow]
  cases mask.testBit number <;> simp

theorem bit_eq {number : Nat} (less : number < 64) : shiftUp 64 1 number = .ok (2 ^ number) := by
  have small : 2 ^ number < 2 ^ 64 := Nat.pow_lt_pow_right (by decide) less
  rw [shiftUp_eq less (by rw [Nat.one_shiftLeft]; exact small), Nat.one_shiftLeft]

theorem readCounts_faithful {valid : UInt64} {numbers : List Nat} {c : Cursor}
    (small : ∀ number ∈ numbers, number < 64) (sound : c.Addressable) :
    readCounts valid numbers c =
      ended (TablesHeader.readCounts (numbers.filter valid.toNat.testBit) c) := by
  induction numbers generalizing c with
  | nil => rfl
  | cons number later ih =>
    rw [List.forall_mem_cons] at small
    rw [readCounts, lift_bind (bit_eq small.1)]
    by_cases absent : valid.toNat.testBit number = false
    · rw [if_pos ((and_bit_eq_zero_iff ..).2 absent), List.filter_cons_of_neg (by simp [absent])]
      exact ih small.2 sound
    · rw [if_neg (mt (and_bit_eq_zero_iff ..).1 absent),
        List.filter_cons_of_pos (by simpa using absent), TablesHeader.readCounts]
      cases TableId.ofNat? number with
      | none => rfl
      | some table =>
        refine bind_program sound fun _ sound' => ?_
        exact bind_ended (ih small.2 sound') fun _ => rfl

theorem addressable_of_readCounts {numbers : List Nat} {present : List (TableId × UInt32)}
    {c c' : Cursor} (h : TablesHeader.readCounts numbers c = .ok present c') (sound : c.Addressable) :
    c'.Addressable := by
  induction numbers generalizing present c with
  | nil => cases h; exact sound
  | cons number later ih =>
    rw [TablesHeader.readCounts] at h
    cases known : TableId.ofNat? number with
    | none => rw [known] at h; cases h
    | some table =>
      rw [known] at h
      obtain ⟨count, c₁, first, h⟩ := Reader.bind_eq_ok.1 h
      obtain ⟨rest, c₂, second, h⟩ := Reader.bind_eq_ok.1 h
      obtain ⟨-, rfl⟩ := Reader.pure_eq_ok.1 h
      exact ih second (keeps first sound)

/-- Every bit of the mask is tried. -/
instance (valid : UInt64) : Programmed (TablesHeader.readCounts (TablesHeader.setBits valid)) where
  program := readCounts valid (List.range 64)
  faithful := readCounts_faithful fun _ => List.mem_range.1
  keeps := addressable_of_readCounts

instance : Programmed TablesHeader.read := by delta TablesHeader.read; dsimp only; infer_instance

/-! ## The layout -/

/-- The end of a table, if it lies within a stream of `size` bytes. -/
def tableStop (size offset count rowSize : Nat) : Option Nat :=
  ((checked 64 (count * rowSize)).bind fun bytes => checked 64 (bytes + offset)).filter (· ≤ size)

theorem tableStop_eq {size offset count rowSize : Nat} (short : size < 2 ^ 63) :
    tableStop size offset count rowSize =
      if offset + count * rowSize ≤ size then some (offset + count * rowSize) else none := by
  rw [tableStop, Nat.add_comm offset]
  by_cases fits : count * rowSize + offset ≤ size
  · rw [checked_eq (by omega), Option.bind_some, filter_checked short]
  · rw [if_neg fits]
    unfold checked
    split
    · rw [Option.bind_some, ← checked, filter_checked short, if_neg fits]
    · rfl

/-- Places those of the given tables that are present, one behind the other from `offset` on. -/
def layOut (h : TablesHeader) (size : Nat) : Nat → List TableId → Run (List Placement)
  | _, [] => return []
  | offset, table :: later => do
    let bit ← shiftUp 64 1 table.toNat
    if h.valid.toNat &&& bit = 0 then layOut h size offset later
    else
      let count ← fetch h.rowCounts.toList table.toNat
      let rowSize ← rowSize h.schema table
      match tableStop size offset count.toNat rowSize with
      | some stop => return ⟨table, offset, count.toNat, rowSize⟩ :: (← layOut h size stop later)
      | none => refuse (.malformed (.tablePastEnd table count.toNat rowSize offset size))

end Machine

namespace TablesHeader

/-- The given tables that are present, with their row counts. -/
def presentOf (h : TablesHeader) (tables : List TableId) : List (TableId × UInt32) :=
  (tables.filter h.hasTable).map fun t => (t, h.rowCount t)

/-- A list in which no table stands twice is that of its look-ups. -/
theorem map_lookup_of_nodup {present : List (TableId × UInt32)}
    (distinct : (present.map Prod.fst).Nodup) :
    (present.map Prod.fst).map (fun t => (t, (present.lookup t).getD 0)) = present := by
  induction present with
  | nil => rfl
  | cons first later ih =>
    obtain ⟨table, count⟩ := first
    rw [List.map_cons, List.nodup_cons] at distinct
    rw [List.map_cons, List.map_cons, List.lookup_cons_self, Option.getD_some]
    refine congrArg (_ :: ·) ((List.map_congr_left fun t mem => ?_).trans (ih distinct.2))
    have other : (t == table) = false := by
      simpa using fun same : t = table => distinct.1 (same ▸ mem)
    rw [List.lookup_cons, other]

/-- A header that was read lists the tables of its mask. -/
theorem present_eq_of_read {stream : Bytes} {h : TablesHeader} {c' : Cursor}
    (found : read (.start stream) = .ok h c') : h.present = h.presentOf TableId.all := by
  rw [read_of_sound (sound_of_read found)] at found
  cases found
  have tables : (stored stream).present.map Prod.fst = TableId.all.filter (stored stream).hasTable :=
    map_fst_countsAt ..
  have distinct : ((stored stream).present.map Prod.fst).Nodup := by
    rw [tables]
    exact List.Nodup.filter _ (by decide)
  rw [presentOf, ← tables]
  exact (map_lookup_of_nodup distinct).symm

end TablesHeader

theorem Progress.toExcept_cons_eq {ε α : Type} (a : α) (later : Progress ε α) :
    (⟨a :: later.done, later.fault⟩ : Progress ε α).toExcept =
      (do return a :: (← later.toExcept)) := by
  obtain ⟨done, fault⟩ := later
  cases fault <;> rfl

theorem Placement.toExcept_layOut_cons (s : Schema) (size offset : Nat) (table : TableId)
    (count : UInt32) (rest : List (TableId × UInt32)) :
    (layOut s size offset ((table, count) :: rest)).toExcept =
      if offset + count.toNat * s.rowSize table ≤ size then do
        let later ← (layOut s size (offset + count.toNat * s.rowSize table) rest).toExcept
        return ⟨table, offset, count.toNat, s.rowSize table⟩ :: later
      else
        .error (.malformed (.tablePastEnd table count.toNat (s.rowSize table) offset size)) := by
  rw [layOut]
  dsimp only
  split
  · next fits => exact (Progress.toExcept_cons_eq _ _).trans (if_pos fits).symm
  · next past => exact (if_neg past).symm

namespace Machine

open Programmed (program faithful keeps)

variable {s : Schema}

theorem layOut_eq {h : TablesHeader} {size : Nat} (short : size < 2 ^ 63) (offset : Nat)
    (tables : List TableId) :
    layOut h size offset tables =
      Run.of (Placement.layOut h.schema size offset (h.presentOf tables)).toExcept := by
  induction tables generalizing offset with
  | nil => rfl
  | cons table later ih =>
    have few := table.toNat_lt
    rw [layOut, bit_eq (by omega), ok_bind, TablesHeader.presentOf]
    by_cases absent : h.hasTable table = false
    · rw [if_pos ((and_bit_eq_zero_iff ..).2 absent), List.filter_cons_of_neg (by simp [absent]), ih]
      rfl
    · have counted : h.rowCounts.toList[table.toNat]? = some (h.rowCount table) := by
        rw [TablesHeader.rowCounts, List.toList_toArray, List.getElem?_map,
          show TableId.all[table.toNat]? = some table from table.ofNat?_toNat]
        rfl
      rw [if_neg (mt (and_bit_eq_zero_iff ..).1 absent),
        List.filter_cons_of_pos (by simpa using absent), List.map_cons, ← TablesHeader.presentOf,
        fetch_eq counted, ok_bind, rowSize_eq, ok_bind, tableStop_eq short,
        Placement.toExcept_layOut_cons]
      by_cases fits : offset + (h.rowCount table).toNat * h.schema.rowSize table ≤ size
      · rw [if_pos fits, if_pos fits]
        exact Run.bind_of (ih _) fun _ _ => rfl
      · rw [if_neg fits, if_neg fits]
        rfl

/-! ## The stream -/

/-- Reads a table where it was placed. -/
def readTableAt (γ : Type) [Columns γ] [ProgrammedColumns γ] (stream : Bytes) (s : Schema) [s.Full]
    (placements : List Placement) : Run (Table γ) :=
  match placements.find? (·.table = Columns.table γ) with
  | some p => do
    let part ← cut stream p.offset stream.size
    (readTable γ s p.rowCount).runAt part 0
  | none => do return ⟨#[], ← rowSize s (Columns.table γ)⟩

/-- The tables that are decoded. -/
def decodedTables : List TableId := [.module, .typeRef, .typeDef, .methodDef, .param]

/-- Reads a whole stream. Before the tables are decoded, each of them is set up without rows. -/
def tables (stream : Bytes) : Run Tables := do
  let (header, first) ← (do
    let header ← program TablesHeader.read
    return (header, ← program Reader.position) : Reading (TablesHeader × Nat)).runAt stream 0
  let placements ← layOut header stream.size first TableId.all
  let s := header.schema
  let _sizes ← decodedTables.mapM (rowSize s)
  let modules ← readTableAt ModuleColumns stream s placements
  let typeRefs ← readTableAt TypeRefColumns stream s placements
  let typeDefs ← readTableAt TypeDefColumns stream s placements
  let methodDefs ← readTableAt MethodDefColumns stream s placements
  let params ← readTableAt ParamColumns stream s placements
  return { header with placements, modules, typeRefs, typeDefs, methodDefs, params }

theorem readTableAt_eq {γ : Type} [Columns γ] [ProgrammedColumns γ] [LawfulColumns γ] [s.Full]
    {stream : Bytes} (short : stream.size < 2 ^ 63) {placements : List Placement}
    (fit : ∀ p ∈ placements, p.stop ≤ stream.size) :
    readTableAt γ stream s placements = Run.of (Tables.readTable γ stream s placements) := by
  rw [readTableAt, Tables.readTable]
  cases found : placements.find? (·.table = Columns.table γ) with
  | none =>
    dsimp only
    rw [rowSize_eq]
    rfl
  | some p =>
    have fits := fit p (List.mem_of_find?_eq_some found)
    have inside : p.offset ≤ stream.size := by
      rw [Placement.stop] at fits
      omega
    have sound : (Cursor.start (stream.extract p.offset stream.size)).Addressable := by
      refine Cursor.addressable_start ?_
      rw [Array.size_extract]
      omega
    dsimp only
    rw [cut_eq inside (Nat.le_refl _), ok_bind]
    exact runAt_of_ended (readTable_faithful sound)

theorem tables_eq {stream : Bytes} (sound : (Cursor.start stream).Addressable) :
    tables stream = Run.of (Tables.read stream) := by
  have short : stream.size < 2 ^ 63 := sound.short
  rw [tables, Tables.read, Tables.parse]
  have start := faithful (r := TablesHeader.read) sound
  cases found : TablesHeader.read (.start stream) with
  | error e c' =>
    rw [found] at start
    unfold Reading.runAt
    rw [show (⟨stream, 0⟩ : Cursor) = .start stream from rfl, Reader.bind_of_error start]
    rfl
  | ok header after =>
    rw [found] at start
    have first : (do
        let header ← program TablesHeader.read
        return (header, ← program Reader.position) : Reading (TablesHeader × Nat)).runAt stream 0 =
          .ok (header, after.pos) := by
      unfold Reading.runAt
      rw [show (⟨stream, 0⟩ : Cursor) = .start stream from rfl, Reader.bind_of_ok start]
      rfl
    rw [first, ok_bind]
    dsimp only
    rw [layOut_eq short, ← TablesHeader.present_eq_of_read found]
    refine Run.bind_of (f := _) rfl fun placements placed => ?_
    obtain ⟨rfl, fit⟩ := Placement.layOut_eq_ok.1 placed
    rw [mapM_ok fun t _ => rowSize_eq t, ok_bind]
    refine Run.bind_of (readTableAt_eq short fit) fun _ _ => ?_
    refine Run.bind_of (readTableAt_eq short fit) fun _ _ => ?_
    refine Run.bind_of (readTableAt_eq short fit) fun _ _ => ?_
    refine Run.bind_of (readTableAt_eq short fit) fun _ _ => ?_
    exact Run.bind_of (readTableAt_eq short fit) fun _ _ => rfl

end Machine

end ManagedImage
