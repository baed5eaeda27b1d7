/-
The layout of the stream of tables. The header that is stored at its start says
which tables follow and how many rows they have, and so where each of them lies
(`TablesHeader.stored`, `startOf`). A stream is accepted exactly if the header is
sound, the tables fit and no type definition has a base with the reserved tag; each
table then lies behind the one in front of it, and its rows are those that
stand there (`Tables.read_layout`).
-/
import Mathlib.Data.List.Chain
import Mathlib.Data.List.Nodup
import ManagedImage.Metadata.Tables
import ManagedImage.Proofs.TableRows

namespace ManagedImage

open Reader

namespace TableId

theorem toNat_of_ofNat? {n : Nat} {t : TableId} (h : ofNat? n = some t) : t.toNat = n := by
  have number : (all.map toNat)[n]? = some t.toNat := by
    rw [List.getElem?_map, ← ofNat?, h]
    rfl
  rw [map_toNat_all] at number
  obtain ⟨_, same⟩ := List.getElem?_eq_some_iff.1 number
  rw [List.getElem_range] at same
  exact same.symm

end TableId

theorem Progress.toExcept_cons {ε α : Type} {a : α} {later : Progress ε α} {l : List α} :
    (⟨a :: later.done, later.fault⟩ : Progress ε α).toExcept = .ok l ↔
      ∃ rest, later.toExcept = .ok rest ∧ l = a :: rest := by
  obtain ⟨done, fault⟩ := later
  cases fault <;> simp [toExcept, eq_comm]

/-! ## The places of the tables -/

namespace Schema

/-- The size of tables with the given row counts. -/
def sizeOf (s : Schema) : List (TableId × UInt32) → Nat
  | [] => 0
  | (table, count) :: rest => count.toNat * s.rowSize table + s.sizeOf rest

end Schema

namespace Placement

variable {s : Schema} {offset size : Nat} {present : List (TableId × UInt32)} {p : Placement}

/-- The places of tables that lie one behind the other from `offset` on. -/
def stack (s : Schema) : Nat → List (TableId × UInt32) → List Placement
  | _, [] => []
  | offset, (table, count) :: rest =>
    ⟨table, offset, count.toNat, s.rowSize table⟩ ::
      stack s (offset + count.toNat * s.rowSize table) rest

/-- Tables are laid out as they lie one behind the other, if all of them fit. -/
theorem layOut_eq_ok {places : List Placement} :
    (layOut s size offset present).toExcept = .ok places ↔
      places = stack s offset present ∧ ∀ p ∈ stack s offset present, p.stop ≤ size := by
  induction present generalizing offset places with
  | nil =>
    show Except.ok [] = .ok places ↔ _
    simp [stack, eq_comm]
  | cons first rest ih =>
    obtain ⟨table, count⟩ := first
    rw [layOut, stack, List.forall_mem_cons]
    dsimp only
    split
    · next fits =>
      rw [Progress.toExcept_cons]
      constructor
      · rintro ⟨later, placed, rfl⟩
        obtain ⟨rfl, inside⟩ := ih.1 placed
        exact ⟨rfl, fits, inside⟩
      · rintro ⟨rfl, -, inside⟩
        exact ⟨_, ih.2 ⟨rfl, inside⟩, rfl⟩
    · next past => exact ⟨nofun, fun h => absurd h.2.1 past⟩

theorem map_table_stack (s : Schema) (offset : Nat) (present : List (TableId × UInt32)) :
    (stack s offset present).map table = present.map Prod.fst := by
  induction present generalizing offset with
  | nil => rfl
  | cons first rest ih => rw [stack, List.map_cons, ih, List.map_cons]

theorem chain_stack (s : Schema) (offset : Nat) (present : List (TableId × UInt32)) :
    (stack s offset present).IsChain fun p next => next.offset = p.stop := by
  induction present generalizing offset with
  | nil => exact .nil
  | cons first rest ih =>
    cases rest with
    | nil => exact .singleton _
    | cons second rest => exact .cons_cons rfl (ih _)

theorem stack_fits_iff (inside : offset ≤ size) :
    (∀ p ∈ stack s offset present, p.stop ≤ size) ↔ offset + s.sizeOf present ≤ size := by
  induction present generalizing offset with
  | nil => simpa [stack, Schema.sizeOf] using inside
  | cons first rest ih =>
    obtain ⟨table, count⟩ := first
    rw [stack, List.forall_mem_cons, Schema.sizeOf, ← Nat.add_assoc]
    constructor
    · rintro ⟨fits, later⟩
      exact (ih fits).1 later
    · intro whole
      have fits : offset + count.toNat * s.rowSize table ≤ size := by omega
      exact ⟨fits, (ih fits).2 whole⟩

/-- A table lies behind those in front of it, and has the rows that were counted. -/
theorem mem_stack (distinct : (present.map Prod.fst).Nodup) (mem : p ∈ stack s offset present) :
    p.offset = offset + s.sizeOf (present.takeWhile fun entry => entry.1 ≠ p.table) ∧
      p.rowCount = ((present.lookup p.table).getD 0).toNat ∧ p.rowSize = s.rowSize p.table := by
  induction present generalizing offset with
  | nil => cases mem
  | cons first rest ih =>
    obtain ⟨table, count⟩ := first
    rw [stack] at mem
    rw [List.map_cons, List.nodup_cons] at distinct
    rcases List.mem_cons.1 mem with rfl | mem
    · simp [Schema.sizeOf]
    · -- A later table lies behind the first as well, for no table is listed twice.
      have later : p.table ∈ rest.map Prod.fst := by
        rw [← map_table_stack s]
        exact List.mem_map_of_mem mem
      have other : table ≠ p.table := fun same => distinct.1 (same ▸ later)
      obtain ⟨place, rows, size⟩ := ih distinct.2 mem
      refine ⟨?_, ?_, size⟩
      · rw [List.takeWhile_cons_of_pos (by simpa using other), Schema.sizeOf, place,
          Nat.add_assoc]
      · have unlike : (p.table == table) = false := by simpa using other.symm
        rw [List.lookup_cons, unlike, rows]

end Placement

/-! ## The header -/

namespace TablesHeader

/-- The row counts of tables as they are stored from a position on. -/
def countsAt (data : Bytes) : Nat → List TableId → List (TableId × UInt32)
  | _, [] => []
  | pos, table :: later =>
    (table, UInt32.ofNat (data.leNat pos 4)) :: countsAt data (pos + 4) later

/-- The header that is stored at the start of a stream, whatever is wrong with it. -/
def stored (stream : Bytes) : TablesHeader :=
  let valid := UInt64.ofNat (stream.leNat 8 8)
  { reserved := UInt32.ofNat (stream.leNat 0 4)
    major := stream.getD 4 0
    minor := stream.getD 5 0
    heapSizes := stream.getD 6 0
    valid
    sorted := UInt64.ofNat (stream.leNat 16 8)
    present := countsAt stream 24 (TableId.all.filter fun t => valid.toNat.testBit t.toNat) }

/-- Where the first table lies: behind the row counts and the extra word. -/
def tablesStart (h : TablesHeader) : Nat :=
  24 + 4 * h.tableCount + if h.heapSizes &&& 0x40 ≠ 0 then 4 else 0

/-- Where a table lies: behind all those in front of it. -/
def startOf (h : TablesHeader) (t : TableId) : Nat :=
  h.tablesStart + h.schema.sizeOf (h.present.takeWhile fun entry => entry.1 ≠ t)

/-- No bit of the mask is that of an unknown table. -/
def Known (mask : UInt64) : Prop := ∀ bit, mask.toNat.testBit bit = true → bit ≤ 0x2C

theorem map_fst_countsAt (data : Bytes) (pos : Nat) (tables : List TableId) :
    (countsAt data pos tables).map Prod.fst = tables := by
  induction tables generalizing pos with
  | nil => rfl
  | cons table later ih => rw [countsAt, List.map_cons, ih]

theorem lt_of_testBit {mask : UInt64} {bit : Nat} (set : mask.toNat.testBit bit = true) :
    bit < 64 := by
  by_contra past
  rw [Nat.testBit_lt_two_pow] at set
  · cases set
  · exact Nat.lt_of_lt_of_le mask.toNat_lt (Nat.pow_le_pow_right (by decide) (by omega))

/-- The bits that are set in a mask of known tables are those of the tables. -/
theorem setBits_of_known {mask : UInt64} (known : Known mask) :
    setBits mask = (TableId.all.filter fun t => mask.toNat.testBit t.toNat).map TableId.toNat := by
  -- No bit above those of the tables is set.
  have others : (List.range' 45 19).filter mask.toNat.testBit = [] := by
    rw [List.filter_eq_nil_iff]
    intro bit mem set
    have low := known bit set
    rw [List.mem_range'_1] at mem
    omega
  have split : List.range 64 = List.range 45 ++ List.range' 45 19 := by decide
  rw [setBits, split, List.filter_append, others, List.append_nil, ← TableId.map_toNat_all,
    List.filter_map]
  rfl

theorem setBits_ne_nil {mask : UInt64} (some : mask ≠ 0) : setBits mask ≠ [] := by
  have positive : mask.toNat ≠ 0 := fun zero => some (UInt64.toNat_inj.1 zero)
  obtain ⟨bit, set⟩ := Nat.exists_testBit_of_ne_zero positive
  exact List.ne_nil_of_mem (List.mem_filter.2 ⟨List.mem_range.2 (lt_of_testBit set), set⟩)

theorem known_of_setBits {mask : UInt64} {tables : List TableId}
    (h : setBits mask = tables.map TableId.toNat) : Known mask := by
  intro bit set
  have mem : bit ∈ setBits mask := List.mem_filter.2 ⟨List.mem_range.2 (lt_of_testBit set), set⟩
  rw [h] at mem
  obtain ⟨table, -, rfl⟩ := List.mem_map.1 mem
  exact Nat.le_of_lt_succ table.toNat_lt

theorem readCounts_of_fits {data : Bytes} {pos : Nat} {tables : List TableId}
    (fits : pos + 4 * tables.length ≤ data.size) :
    readCounts (tables.map TableId.toNat) ⟨data, pos⟩ =
      .ok (countsAt data pos tables) ⟨data, pos + 4 * tables.length⟩ := by
  induction tables generalizing pos with
  | nil => rfl
  | cons table later ih =>
    rw [List.length_cons] at fits
    have count : u32 ⟨data, pos⟩ = .ok (UInt32.ofNat (data.leNat pos 4)) ⟨data, pos + 4⟩ :=
      map_eq_ok.2 ⟨_, nat_of_fits (by simp only; omega), rfl⟩
    rw [List.map_cons, readCounts, TableId.ofNat?_toNat]
    dsimp only
    rw [bind_of_ok count, bind_of_ok (ih (by omega)), List.length_cons, Nat.mul_succ,
      Nat.add_comm (4 * _), ← Nat.add_assoc]
    rfl

/-- Row counts are read only for known tables, and if all of them are there. -/
theorem readCounts_eq_ok {data : Bytes} {pos : Nat} {numbers : List Nat}
    {present : List (TableId × UInt32)} {c' : Cursor} (inside : pos ≤ data.size)
    (h : readCounts numbers ⟨data, pos⟩ = .ok present c') :
    ∃ tables : List TableId, numbers = tables.map TableId.toNat ∧
      pos + 4 * tables.length ≤ data.size := by
  induction numbers generalizing pos present c' with
  | nil => exact ⟨[], rfl, by simpa using inside⟩
  | cons number later ih =>
    rw [readCounts] at h
    cases known : TableId.ofNat? number with
    | none => rw [known] at h; cases h
    | some table =>
      rw [known] at h
      obtain ⟨count, c₁, first, h⟩ := bind_eq_ok.1 h
      obtain ⟨fits, -, rfl⟩ := u32_keeps first
      obtain ⟨rest, c₂, second, -⟩ := bind_eq_ok.1 h
      obtain ⟨tables, rfl, all⟩ := ih fits second
      refine ⟨table :: tables, ?_, ?_⟩
      · rw [List.map_cons, TableId.toNat_of_ofNat? known]
      · simp only [List.length_cons] at all ⊢
        omega

/-- What is read behind the fixed part of the header. -/
theorem read_of_fits {stream : Bytes} (fits : 24 ≤ stream.size) :
    read (.start stream) =
      (let h := stored stream
       if h.valid = 0 then malformed .noTables
       else do
        let present ← readCounts (setBits h.valid)
        if h.heapSizes &&& 0x40 ≠ 0 then advance 4
        return { h with present }) ⟨stream, 24⟩ := by
  have reserved : u32 ⟨stream, 0⟩ = .ok (UInt32.ofNat (stream.leNat 0 4)) ⟨stream, 4⟩ :=
    map_eq_ok.2 ⟨_, nat_of_fits (by simp only; omega), rfl⟩
  have major := u8_of_fits (c := ⟨stream, 4⟩) (by simp only; omega)
  have minor := u8_of_fits (c := ⟨stream, 5⟩) (by simp only; omega)
  have heapSizes := u8_of_fits (c := ⟨stream, 6⟩) (by simp only; omega)
  have skip := advance_of_fits (n := 1) (c := ⟨stream, 7⟩) (by simp only [Cursor.remaining]; omega)
  have valid : u64 ⟨stream, 8⟩ = .ok (UInt64.ofNat (stream.leNat 8 8)) ⟨stream, 16⟩ :=
    map_eq_ok.2 ⟨_, nat_of_fits (by simp only; omega), rfl⟩
  have sorted : u64 ⟨stream, 16⟩ = .ok (UInt64.ofNat (stream.leNat 16 8)) ⟨stream, 24⟩ :=
    map_eq_ok.2 ⟨_, nat_of_fits (by simp only; omega), rfl⟩
  rw [read, Cursor.start, bind_of_ok reserved, bind_of_ok major, bind_of_ok minor,
    bind_of_ok heapSizes, bind_of_ok skip, bind_of_ok valid, bind_of_ok sorted]
  dsimp only [stored]
  split <;> rfl

theorem fits_of_read {stream : Bytes} {h : TablesHeader} {c' : Cursor}
    (read : read (.start stream) = .ok h c') : 24 ≤ stream.size := by
  obtain ⟨reserved, c, first, read⟩ := bind_eq_ok.1 read
  obtain ⟨-, -, rfl⟩ := u32_keeps first
  obtain ⟨major, c, first, read⟩ := bind_eq_ok.1 read
  obtain ⟨-, -, rfl⟩ := u8_keeps first
  obtain ⟨minor, c, first, read⟩ := bind_eq_ok.1 read
  obtain ⟨-, -, rfl⟩ := u8_keeps first
  obtain ⟨heapSizes, c, first, read⟩ := bind_eq_ok.1 read
  obtain ⟨-, -, rfl⟩ := u8_keeps first
  obtain ⟨_, c, first, read⟩ := bind_eq_ok.1 read
  obtain ⟨-, rfl⟩ := advance_keeps first
  obtain ⟨valid, c, first, read⟩ := bind_eq_ok.1 read
  obtain ⟨_, first, -⟩ := map_eq_ok.1 first
  obtain ⟨-, -, rfl⟩ := nat_keeps first
  obtain ⟨sorted, c, first, -⟩ := bind_eq_ok.1 read
  obtain ⟨_, first, -⟩ := map_eq_ok.1 first
  exact (nat_keeps first).1

/-- The header of a stream can be read: it is there, and counts known tables and at least one. -/
structure Sound (stream : Bytes) : Prop where
  long : (stored stream).tablesStart ≤ stream.size
  some : (stored stream).valid ≠ 0
  known : Known (stored stream).valid

theorem read_of_sound {stream : Bytes} (sound : Sound stream) :
    read (.start stream) = .ok (stored stream) ⟨stream, (stored stream).tablesStart⟩ := by
  obtain ⟨long, some, known⟩ := sound
  -- The counts that are read are those of the set bits, which are known tables.
  have numbers := setBits_of_known known
  rw [tablesStart, tableCount, numbers, List.length_map] at long ⊢
  rw [read_of_fits (by omega)]
  dsimp only
  rw [if_neg some, numbers, bind_of_ok (readCounts_of_fits (by omega))]
  by_cases extra : (stored stream).heapSizes &&& 0x40 ≠ 0
  · simp only [if_pos extra] at long ⊢
    rw [bind_of_ok (advance_of_fits (by simp only [Cursor.remaining]; omega))]
    rfl
  · simp only [if_neg extra]
    rfl

theorem sound_of_read {stream : Bytes} {h : TablesHeader} {c' : Cursor}
    (read : read (.start stream) = .ok h c') : Sound stream := by
  have fits := fits_of_read read
  rw [read_of_fits fits] at read
  dsimp only at read
  split at read
  · cases read
  · next some =>
    obtain ⟨present, c, counts, read⟩ := bind_eq_ok.1 read
    obtain ⟨tables, numbers, inside⟩ := readCounts_eq_ok fits counts
    rw [numbers, readCounts_of_fits inside] at counts
    cases counts
    refine ⟨?_, some, known_of_setBits numbers⟩
    rw [tablesStart, tableCount, numbers, List.length_map]
    split at read
    · next extra =>
      obtain ⟨_, c, skipped, -⟩ := bind_eq_ok.1 read
      obtain ⟨room, -⟩ := advance_keeps skipped
      simp only [Cursor.remaining] at room
      rw [if_pos extra]
      omega
    · next plain =>
      rw [if_neg plain]
      exact inside

/-- The places of the tables. -/
def places (h : TablesHeader) : List Placement :=
  Placement.stack h.schema h.tablesStart h.present

/-- Where the last table ends. -/
def tablesStop (h : TablesHeader) : Nat := h.tablesStart + h.schema.sizeOf h.present

/-- The base of some type definition has the reserved tag. -/
def HasReservedBase (h : TablesHeader) (stream : Bytes) : Prop :=
  ∃ k < (h.rowCount .typeDef).toNat, TypeDefColumns.baseTag h.schema stream
    (h.startOf .typeDef + k * h.schema.rowSize .typeDef) = 3

end TablesHeader

/-! ## Reading the stream -/

namespace Tables

open TablesHeader

variable {γ : Type} [Columns γ] {stream : Bytes} {s : Schema} {places : List Placement}
  {p : Placement} {table : Table γ}

theorem find?_table (distinct : (places.map Placement.table).Nodup) (mem : p ∈ places) :
    places.find? (·.table = p.table) = some p := by
  cases found : places.find? (·.table = p.table) with
  | none =>
    have missing := List.find?_eq_none.1 found p mem
    simp at missing
  | some q =>
    have same : q.table = p.table := by simpa using List.find?_some found
    rw [List.inj_on_of_nodup_map distinct (List.mem_of_find?_eq_some found) mem same]

theorem readTable_of_mem (distinct : (places.map Placement.table).Nodup) (mem : p ∈ places)
    (own : p.table = Columns.table γ) :
    readTable γ stream s places =
      (Table.read γ s p.rowCount).run (stream.extract p.offset stream.size) := by
  rw [readTable, ← own, find?_table distinct mem]

theorem readTable_of_absent (absent : ∀ p ∈ places, p.table ≠ Columns.table γ) :
    readTable γ stream s places = .ok (.empty γ s) := by
  have none : places.find? (·.table = Columns.table γ) = none :=
    List.find?_eq_none.2 fun p mem => by simpa using absent p mem
  rw [readTable, none]

/-- The rows of a table are those that stand at its place; an absent table has none. -/
structure Holds (table : Table γ) (s : Schema) (stream : Bytes) (places : List Placement) :
    Prop where
  present : ∀ p ∈ places, p.table = Columns.table γ → table.StandsAt s stream p.offset p.rowCount
  absent : (∀ p ∈ places, p.table ≠ Columns.table γ) → ∀ rid, table.row? rid = none

variable [LawfulColumns γ] (distinct : (places.map Placement.table).Nodup)
  (fits : ∀ p ∈ places, p.offset + p.rowCount * s.rowSize p.table ≤ stream.size)
include distinct fits

theorem holds_of_readTable (h : readTable γ stream s places = .ok table) :
    Holds table s stream places := by
  constructor
  · intro p mem own
    rw [readTable_of_mem distinct mem own] at h
    exact Table.standsAt_of_read (own ▸ fits p mem) h
  · intro absent rid
    rw [readTable_of_absent absent] at h
    cases h
    cases rid <;> rfl

theorem readTable_succeeds_iff :
    (∃ table, readTable γ stream s places = .ok table) ↔
      ∀ p ∈ places, p.table = Columns.table γ → ∀ k < p.rowCount, ∃ columns c',
        (Columns.read s : Reader γ) ⟨stream, p.offset + k * s.rowSize (Columns.table γ)⟩ =
          .ok columns c' := by
  by_cases placed : ∃ p ∈ places, p.table = Columns.table γ
  · obtain ⟨p, mem, own⟩ := placed
    rw [readTable_of_mem distinct mem own, Table.read_succeeds_iff (own ▸ fits p mem)]
    refine ⟨fun all q mem' own' => ?_, fun all => all p mem own⟩
    rw [List.inj_on_of_nodup_map distinct mem' mem (own'.trans own.symm)]
    exact all
  · have absent : ∀ p ∈ places, p.table ≠ Columns.table γ := fun p mem own => placed ⟨p, mem, own⟩
    rw [readTable_of_absent absent]
    exact ⟨fun _ p mem own => absurd own (absent p mem), fun _ => ⟨_, rfl⟩⟩

variable (γ) in
theorem readTable_of_total [TotalColumns γ] :
    ∃ table, readTable γ stream s places = .ok table := by
  refine (readTable_succeeds_iff distinct fits).2 fun p mem own k less => ?_
  have inside := Nat.le_trans (@Table.row_stop_le p.offset p.rowCount k _ less) (fits p mem)
  rw [own] at inside
  obtain ⟨columns, read⟩ := Total.succeeds (r := (Columns.read s : Reader γ))
    ⟨stream, p.offset + k * s.rowSize (Columns.table γ)⟩ inside
  exact ⟨columns, _, read⟩

end Tables

namespace TablesHeader

variable {stream : Bytes}

theorem map_table_places (stream : Bytes) :
    (stored stream).places.map Placement.table = TableId.all.filter (stored stream).hasTable := by
  rw [places, Placement.map_table_stack]
  exact map_fst_countsAt ..

theorem places_nodup (stream : Bytes) :
    ((stored stream).places.map Placement.table).Nodup := by
  rw [map_table_places]
  exact List.Nodup.filter _ (by decide)

theorem mem_places {p : Placement} (mem : p ∈ (stored stream).places) :
    p.offset = (stored stream).startOf p.table ∧
      p.rowCount = ((stored stream).rowCount p.table).toNat ∧
      p.rowSize = (stored stream).schema.rowSize p.table := by
  have distinct := places_nodup stream
  rw [places, Placement.map_table_stack] at distinct
  exact Placement.mem_stack distinct mem

theorem places_fit (sound : Sound stream) (whole : (stored stream).tablesStop ≤ stream.size) :
    ∀ p ∈ (stored stream).places,
      p.offset + p.rowCount * (stored stream).schema.rowSize p.table ≤ stream.size := by
  intro p mem
  rw [← (mem_places mem).2.2]
  exact (Placement.stack_fits_iff sound.long).2 whole p mem

theorem head?_places (sound : Sound stream) :
    (stored stream).places.head?.map Placement.offset = some (stored stream).tablesStart := by
  have numbers := setBits_of_known sound.known
  have some := setBits_ne_nil sound.some
  cases present : (stored stream).present with
  | nil =>
    have tables := map_fst_countsAt stream 24 (TableId.all.filter (stored stream).hasTable)
    have none : TableId.all.filter (stored stream).hasTable = [] := by
      rw [← tables]
      exact congrArg (List.map Prod.fst) present
    rw [numbers] at some
    exact absurd (congrArg (List.map TableId.toNat) none) some
  | cons first rest =>
    rw [places, present]
    rfl

theorem exists_mem_places {t : TableId} (rows : 0 < ((stored stream).rowCount t).toNat) :
    ∃ p ∈ (stored stream).places, p.table = t := by
  by_contra unplaced
  have absent : t ∉ (stored stream).present.map Prod.fst := by
    rw [← Placement.map_table_stack (stored stream).schema (stored stream).tablesStart,
      List.mem_map]
    exact unplaced
  have missing : (stored stream).present.lookup t = none := by
    rw [List.lookup_eq_none_iff]
    intro q mem
    rw [bne_iff_ne]
    rintro rfl
    exact absent (List.mem_map_of_mem mem)
  rw [rowCount, missing] at rows
  exact absurd rows (by decide)

end TablesHeader

namespace Tables

open TablesHeader

variable {stream : Bytes} {t : Tables}

/-- The stages of reading a stream, each of which succeeded. -/
structure Stages (stream : Bytes) (t : Tables) : Prop where
  sound : Sound stream
  fits : ∀ p ∈ (stored stream).places, p.stop ≤ stream.size
  header : t.toTablesHeader = stored stream
  placements : t.placements = (stored stream).places
  modules : readTable ModuleColumns stream t.schema t.placements = .ok t.modules
  typeRefs : readTable TypeRefColumns stream t.schema t.placements = .ok t.typeRefs
  typeDefs : readTable TypeDefColumns stream t.schema t.placements = .ok t.typeDefs
  methodDefs : readTable MethodDefColumns stream t.schema t.placements = .ok t.methodDefs
  params : readTable ParamColumns stream t.schema t.placements = .ok t.params

theorem parse_of_sound (sound : Sound stream) :
    parse stream = .ok (stored stream, Placement.layOut (stored stream).schema stream.size
      (stored stream).tablesStart (stored stream).present) := by
  rw [parse, read_of_sound sound]

theorem sound_of_parse {parsed : TablesHeader × Progress Error Placement}
    (h : parse stream = .ok parsed) : Sound stream := by
  unfold parse at h
  split at h
  · next read => exact sound_of_read read
  · cases h

theorem read_eq_ok : read stream = .ok t ↔ Stages stream t := by
  constructor
  · intro h
    obtain ⟨parsed, header, h⟩ := Except.bind_eq_ok.1 h
    have sound := sound_of_parse header
    rw [parse_of_sound sound] at header
    cases header
    obtain ⟨placements, placed, h⟩ := Except.bind_eq_ok.1 h
    obtain ⟨rfl, fits⟩ := Placement.layOut_eq_ok.1 placed
    obtain ⟨modules, first, h⟩ := Except.bind_eq_ok.1 h
    obtain ⟨typeRefs, second, h⟩ := Except.bind_eq_ok.1 h
    obtain ⟨typeDefs, third, h⟩ := Except.bind_eq_ok.1 h
    obtain ⟨methodDefs, fourth, h⟩ := Except.bind_eq_ok.1 h
    obtain ⟨params, fifth, h⟩ := Except.bind_eq_ok.1 h
    cases h
    exact ⟨sound, fits, rfl, rfl, first, second, third, fourth, fifth⟩
  · rintro ⟨sound, fits, header, placements, first, second, third, fourth, fifth⟩
    obtain ⟨h, places, modules, typeRefs, typeDefs, methodDefs, params⟩ := t
    dsimp only at header placements first second third fourth fifth
    subst header placements
    unfold read
    rw [parse_of_sound sound]
    have placed := Placement.layOut_eq_ok.2 ⟨rfl, fits⟩
    refine Except.bind_eq_ok.2 ⟨_, rfl, Except.bind_eq_ok.2 ⟨_, placed, ?_⟩⟩
    refine Except.bind_eq_ok.2 ⟨_, first, Except.bind_eq_ok.2 ⟨_, second, ?_⟩⟩
    refine Except.bind_eq_ok.2 ⟨_, third, Except.bind_eq_ok.2 ⟨_, fourth, ?_⟩⟩
    exact Except.bind_eq_ok.2 ⟨_, fifth, rfl⟩

/-- The type definitions are read unless one of them has a base with the reserved tag. -/
theorem readTypeDefs_succeeds_iff (sound : Sound stream)
    (whole : (stored stream).tablesStop ≤ stream.size) :
    (∃ types, readTable TypeDefColumns stream (stored stream).schema (stored stream).places =
      .ok types) ↔ ¬ (stored stream).HasReservedBase stream := by
  have fits := places_fit sound whole
  rw [readTable_succeeds_iff (places_nodup stream) fits]
  constructor
  · -- A row that is counted is one of a table that is placed.
    rintro all ⟨k, less, reserved⟩
    obtain ⟨p, mem, own⟩ := exists_mem_places (Nat.zero_lt_of_lt less)
    obtain ⟨place, rows, -⟩ := mem_places mem
    rw [own] at place rows
    have inside := Nat.le_trans (Table.row_stop_le (rows ▸ less)) (fits p mem)
    rw [own] at inside
    have other := (TypeDefColumns.read_succeeds_iff inside).1 (all p mem own k (rows ▸ less))
    rw [place] at other
    exact other reserved
  · intro none p mem own k less
    obtain ⟨place, rows, -⟩ := mem_places mem
    have inside := Nat.le_trans (Table.row_stop_le less) (fits p mem)
    rw [own] at place rows inside
    refine (TypeDefColumns.read_succeeds_iff inside).2 fun reserved => none ⟨k, rows ▸ less, ?_⟩
    rw [place] at reserved
    exact reserved

/-- How the tables of a stream that was accepted lie in it, and what their rows are. -/
structure LaidOut (t : Tables) (stream : Bytes) : Prop where
  header : t.toTablesHeader = stored stream
  listed : t.placements.map (fun p => p.table.toNat) = (List.range 64).filter t.valid.toNat.testBit
  first : t.placements.head?.map Placement.offset =
    some (24 + 4 * (setBits t.valid).length + if t.heapSizes &&& 0x40 ≠ 0 then 4 else 0)
  next : t.placements.IsChain fun p next => next.offset = p.offset + p.rowCount * p.rowSize
  inside : ∀ p ∈ t.placements, p.offset + p.rowCount * p.rowSize ≤ stream.size
  rows : ∀ p ∈ t.placements, p.rowCount = (t.rowCount p.table).toNat ∧
    p.rowSize = t.schema.rowSize p.table
  modules : Holds t.modules t.schema stream t.placements
  typeRefs : Holds t.typeRefs t.schema stream t.placements
  typeDefs : Holds t.typeDefs t.schema stream t.placements
  methodDefs : Holds t.methodDefs t.schema stream t.placements
  params : Holds t.params t.schema stream t.placements

theorem laidOut_of_stages (h : Stages stream t) : LaidOut t stream := by
  have distinct := places_nodup stream
  have fits := places_fit h.sound ((Placement.stack_fits_iff h.sound.long).1 h.fits)
  obtain ⟨sound, inside, header, placements, modules, typeRefs, typeDefs, methodDefs, params⟩ := h
  simp only [header, placements] at modules typeRefs typeDefs methodDefs params
  constructor
  case header => exact header
  case listed =>
    rw [placements, header, ← setBits, setBits_of_known sound.known]
    have tables := congrArg (List.map TableId.toNat) (map_table_places stream)
    rwa [List.map_map] at tables
  case first =>
    rw [placements, header]
    exact head?_places sound
  case next => rw [placements]; exact Placement.chain_stack ..
  case inside => rw [placements]; exact inside
  case rows =>
    rw [placements, header]
    exact fun p mem => (mem_places mem).2
  all_goals rw [placements, header]
  case modules => exact holds_of_readTable distinct fits modules
  case typeRefs => exact holds_of_readTable distinct fits typeRefs
  case typeDefs => exact holds_of_readTable distinct fits typeDefs
  case methodDefs => exact holds_of_readTable distinct fits methodDefs
  case params => exact holds_of_readTable distinct fits params

/--
**The layout of the stream of tables.** A stream is accepted exactly if its
header is sound, its tables fit and no type definition has a base with the
reserved tag. The tables that are then listed are those of the mask, in order;
each lies behind the one in front of it, the first behind the header, and all of
them in the stream; and the rows of each table that is decoded are those that
stand there, one for each number up to the count of rows.
-/
theorem read_layout (stream : Bytes) :
    ((∃ t, read stream = .ok t) ↔ Sound stream ∧ (stored stream).tablesStop ≤ stream.size ∧
      ¬ (stored stream).HasReservedBase stream) ∧
    ∀ t, read stream = .ok t → LaidOut t stream := by
  refine ⟨⟨?_, ?_⟩, fun t h => laidOut_of_stages (read_eq_ok.1 h)⟩
  · rintro ⟨t, h⟩
    have h := read_eq_ok.1 h
    have fits := (Placement.stack_fits_iff h.sound.long).1 h.fits
    have types := h.typeDefs
    rw [h.header, h.placements] at types
    exact ⟨h.sound, fits, (readTypeDefs_succeeds_iff h.sound fits).1 ⟨_, types⟩⟩
  · rintro ⟨sound, whole, unreserved⟩
    have distinct := places_nodup stream
    have fits := places_fit sound whole
    obtain ⟨modules, first⟩ := readTable_of_total ModuleColumns distinct fits
    obtain ⟨typeRefs, second⟩ := readTable_of_total TypeRefColumns distinct fits
    obtain ⟨typeDefs, third⟩ := (readTypeDefs_succeeds_iff sound whole).2 unreserved
    obtain ⟨methodDefs, fourth⟩ := readTable_of_total MethodDefColumns distinct fits
    obtain ⟨params, fifth⟩ := readTable_of_total ParamColumns distinct fits
    exact ⟨⟨stored stream, (stored stream).places, modules, typeRefs, typeDefs, methodDefs, params⟩,
      read_eq_ok.2 ⟨sound, (Placement.stack_fits_iff sound.long).2 whole, rfl, rfl, first, second,
        third, fourth, fifth⟩⟩

/--
A stream of five tables: one module, one type reference, two type definitions,
one method and one parameter.
-/
def fiveTables : Bytes :=
  #[0, 0, 0, 0, 2, 0, 0, 1, 0x47, 1, 0, 0, 0, 0, 0, 0, 0, 0, 0, 0, 0, 0, 0, 0,
    1, 0, 0, 0, 1, 0, 0, 0, 2, 0, 0, 0, 1, 0, 0, 0, 1, 0, 0, 0,
    0, 0, 0x0A, 0, 1, 0, 0, 0, 0, 0,
    6, 0, 0x2A, 0, 0x23, 0,
    0, 0, 0, 0, 1, 0, 0, 0, 0, 0, 1, 0, 1, 0,
    1, 0, 0x10, 0, 0x31, 0, 0, 0, 5, 0, 1, 0, 1, 0,
    0x50, 0x20, 0, 0, 0, 0, 0x96, 0, 0x39, 0, 0x0A, 0, 1, 0,
    0, 0, 1, 0, 0x3E, 0]

/-- The same stream, but for the base of the second type definition. -/
def reservedBase : Bytes := fiveTables.set! 82 7

theorem read_layout_fiveTables :
    (∃ t, read fiveTables = .ok t ∧
      t.placements.map Placement.offset = [44, 54, 60, 88, 102] ∧ LaidOut t fiveTables) ∧
    (stored reservedBase).HasReservedBase reservedBase ∧ ¬ ∃ t, read reservedBase = .ok t := by
  have accepted : (read fiveTables).toOption.any
      (fun t => t.placements.map Placement.offset = [44, 54, 60, 88, 102]) = true := by
    decide +kernel
  have reserved : (stored reservedBase).HasReservedBase reservedBase :=
    ⟨1, by decide +kernel, by decide +kernel⟩
  have rejected : ¬ ∃ t, read reservedBase = .ok t := fun read =>
    ((read_layout reservedBase).1.1 read).2.2 reserved
  refine ⟨?_, reserved, rejected⟩
  cases outcome : read fiveTables with
  | error e => rw [outcome] at accepted; cases accepted
  | ok t =>
    rw [outcome] at accepted
    exact ⟨t, rfl, of_decide_eq_true accepted, (read_layout fiveTables).2 t outcome⟩

end Tables

end ManagedImage
