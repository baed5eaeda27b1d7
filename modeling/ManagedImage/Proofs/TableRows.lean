/-
Fields of fixed layout. A reader of such a field passes over a count of bytes
that is known beforehand and answers from these bytes alone, wherever they stand
and whatever stands around them (`Window`); unless a check of the field fails, it
succeeds wherever the bytes are there (`Total`).

The columns of each table that is decoded are such a field, of the size that the
schema gives a row (`LawfulColumns`). Of all columns only one can fail: the base
of a type definition, at a reserved tag (`TypeDefColumns.read_succeeds_iff`).
-/
import ManagedImage.Metadata.Table
import ManagedImage.Proofs.Readers

namespace ManagedImage

namespace Bytes

/-- The `n` bytes of `a` from `i` on are those of `b` from `j` on. -/
def Match (a : Bytes) (i : Nat) (b : Bytes) (j n : Nat) : Prop := ∀ k < n, a[i + k]? = b[j + k]?

namespace Match

variable {a b : Bytes} {i j m n : Nat}

theorem symm (h : Match a i b j n) : Match b j a i n := fun k less => (h k less).symm

theorem head (h : Match a i b j (m + n)) : Match a i b j m :=
  fun k less => h k (by omega)

theorem tail (h : Match a i b j (m + n)) : Match a (i + m) b (j + m) n := by
  intro k less
  rw [Nat.add_assoc, Nat.add_assoc]
  exact h (m + k) (by omega)

theorem leNat (h : Match a i b j n) : a.leNat i n = b.leNat j n := by
  induction n generalizing i j with
  | zero => rfl
  | succ n ih =>
    have first := h 0 (by omega)
    simp only [Nat.add_zero] at first
    rw [Nat.add_comm] at h
    simp only [leNat_succ, Array.getD_eq_getD_getElem?, first, ih h.tail]

theorem extract {start stop : Nat} (fits : start + i + n ≤ stop) :
    Match (a.extract start stop) i a (start + i) n := by
  intro k less
  rw [Array.getElem?_extract, Nat.add_assoc]
  by_cases inside : i + k < min stop a.size - start
  · rw [if_pos inside]
  · rw [if_neg inside, Array.getElem?_eq_none (by omega)]

end Match

end Bytes

namespace Reader

variable {α β : Type}

/-- A success passes over `n` bytes and depends on these alone, wherever they stand. -/
class Window (r : Reader α) (n : outParam Nat) : Prop where
  moves : ∀ {c c' : Cursor} {v : α}, r c = .ok v c' → c' = { c with pos := c.pos + n }
  carries : ∀ {a b : Bytes} {i j : Nat} {v : α} {c' : Cursor}, r ⟨a, i⟩ = .ok v c' →
    j + n ≤ b.size → a.Match i b j n → r ⟨b, j⟩ = .ok v ⟨b, j + n⟩

theorem Window.run_extract {r : Reader α} {n : Nat} [Window r n] {data : Bytes} {pos : Nat} {v : α}
    {c' : Cursor} (h : r ⟨data, pos⟩ = .ok v c') (fits : pos + n ≤ data.size) :
    r.run (data.extract pos (pos + n)) = .ok v := by
  have cut : Bytes.Match (data.extract pos (pos + n)) 0 data pos n :=
    Bytes.Match.extract (Nat.le_refl _)
  refine run_eq_ok.2 ⟨_, Window.carries h ?_ cut.symm⟩
  rw [Array.size_extract]
  omega

theorem Window.of_eq {r : Reader α} {m n : Nat} [Window r m] (h : m = n) : Window r n :=
  h ▸ inferInstance

instance (a : α) : Window (pure a : Reader α) 0 where
  moves h := by cases h; rfl
  carries h _ _ := by cases h; rfl

instance {r : Reader α} {f : α → Reader β} {m n : Nat} [Window r m] [∀ a, Window (f a) n] :
    Window (r >>= f) (m + n) where
  moves h := by
    obtain ⟨a, c₁, first, second⟩ := bind_eq_ok.1 h
    rw [Window.moves second, Window.moves first, Nat.add_assoc]
  carries {a b i j v c'} h fits same := by
    obtain ⟨w, c₁, first, second⟩ := bind_eq_ok.1 h
    rw [Window.moves first] at second
    have first' := Window.carries first (by omega) same.head
    rw [bind_of_ok first', ← Nat.add_assoc]
    exact Window.carries second (by omega) same.tail

instance (n : Nat) : Window (nat n) n where
  moves h := by obtain ⟨-, -, rfl⟩ := nat_keeps h; rfl
  carries h fits same := by
    obtain ⟨-, rfl, -⟩ := nat_keeps h
    rw [same.leNat]
    exact nat_of_fits fits

instance (result : Except Error α) : Window (ofExcept result) 0 where
  moves h := by cases result <;> cases h; rfl
  carries h _ _ := by
    cases result with
    | ok v => cases h; rfl
    | error e => cases h

instance : Window u16 2 := by unfold u16; exact Window.of_eq rfl
instance : Window u32 4 := by unfold u32; exact Window.of_eq rfl

instance (large : Bool) : Window (index large) (Schema.width large) := by
  unfold index Schema.width
  exact Window.of_eq rfl

/-- Succeeds wherever `n` more bytes are there, and passes over them. -/
class Total (r : Reader α) (n : outParam Nat) : Prop where
  succeeds : ∀ c : Cursor, c.pos + n ≤ c.data.size →
    ∃ v, r c = .ok v { c with pos := c.pos + n }

theorem Total.of_eq {r : Reader α} {m n : Nat} [Total r m] (h : m = n) : Total r n :=
  h ▸ inferInstance

instance (a : α) : Total (pure a : Reader α) 0 where
  succeeds _ _ := ⟨a, rfl⟩

instance {r : Reader α} {f : α → Reader β} {m n : Nat} [Total r m] [∀ a, Total (f a) n] :
    Total (r >>= f) (m + n) where
  succeeds c fits := by
    obtain ⟨a, first⟩ := Total.succeeds (r := r) c (by omega)
    obtain ⟨v, second⟩ := Total.succeeds (r := f a) { c with pos := c.pos + m }
      (by simp only; omega)
    rw [bind_of_ok first, second, Nat.add_assoc]
    exact ⟨v, rfl⟩

instance (n : Nat) : Total (nat n) n where
  succeeds _ fits := ⟨_, nat_of_fits fits⟩

instance : Total u16 2 := by unfold u16; exact Total.of_eq rfl
instance : Total u32 4 := by unfold u32; exact Total.of_eq rfl

instance (large : Bool) : Total (index large) (Schema.width large) := by
  unfold index Schema.width
  exact Total.of_eq rfl

end Reader

open Reader

/-! ## Coded indexes -/

/-- The tag of the coded index at a position. -/
def Schema.tagAt (s : Schema) (k : CodedKind) (data : Bytes) (pos : Nat) : Nat :=
  data.leNat pos (s.coded k) % k.tags

namespace CodedIndex

variable {s : Schema} {k : CodedKind} {data : Bytes} {pos : Nat}

instance : Window (CodedIndex.read s k) (s.coded k) :=
  inferInstanceAs (Window (index (s.isWideCoded k) >>= _) (Schema.width (s.isWideCoded k)))

theorem decode_succeeds_iff {value : UInt32} :
    (∃ i, decode k value = .ok i) ↔ (k.target? (value.toNat % k.tags)).isSome := by
  unfold decode
  dsimp only
  cases k.target? (value.toNat % k.tags) <;> simp

/-- A column takes the bytes of its width, also where its tag selects no table. -/
theorem read_of_fits (fits : pos + s.coded k ≤ data.size) :
    CodedIndex.read s k ⟨data, pos⟩ =
      ofExcept (decode k (UInt32.ofNat (data.leNat pos (s.coded k)))) ⟨data, pos + s.coded k⟩ := by
  have number : index (s.isWideCoded k) ⟨data, pos⟩ =
      .ok (UInt32.ofNat (data.leNat pos (s.coded k))) ⟨data, pos + s.coded k⟩ := by
    unfold index
    exact map_eq_ok.2 ⟨_, nat_of_fits fits, rfl⟩
  rw [CodedIndex.read, bind_of_ok number]

theorem read_of_lacks (lacks : data.size < pos + s.coded k) :
    CodedIndex.read s k ⟨data, pos⟩ = .error (.outOfBounds pos (s.coded k) data.size) ⟨data, pos⟩ := by
  have number : index (s.isWideCoded k) ⟨data, pos⟩ =
      .error (.outOfBounds pos (s.coded k) data.size) ⟨data, pos⟩ := by
    unfold index
    exact map_of_error (nat_of_lacks (Nat.not_le.2 lacks))
  rw [CodedIndex.read, bind_of_error number]

theorem read_eq_ok {i : CodedIndex} {c' : Cursor} : CodedIndex.read s k ⟨data, pos⟩ = .ok i c' ↔
    pos + s.coded k ≤ data.size ∧ c' = ⟨data, pos + s.coded k⟩ ∧
      decode k (UInt32.ofNat (data.leNat pos (s.coded k))) = .ok i := by
  by_cases fits : pos + s.coded k ≤ data.size
  · rw [read_of_fits fits, ofExcept_eq_ok, and_comm]
    exact (and_iff_right fits).symm
  · rw [read_of_lacks (Nat.not_le.1 fits)]
    exact ⟨nofun, fun h => absurd h.1 fits⟩

/-- A coded index that is there is read unless its tag is reserved. -/
theorem read_succeeds_iff (fits : pos + s.coded k ≤ data.size) :
    (∃ i, CodedIndex.read s k ⟨data, pos⟩ = .ok i ⟨data, pos + s.coded k⟩) ↔
      (k.target? (s.tagAt k data pos)).isSome := by
  have small : data.leNat pos (s.coded k) < 2 ^ 32 := by
    have below := Bytes.leNat_lt data pos (s.coded k)
    have most : Bytes.capacity (s.coded k) ≤ 2 ^ 32 := by
      unfold Schema.coded
      cases s.isWideCoded k <;> decide
    omega
  have tag := @decode_succeeds_iff k (UInt32.ofNat (data.leNat pos (s.coded k)))
  rw [UInt32.toNat_ofNat_of_lt' small] at tag
  rw [Schema.tagAt, ← tag, read_of_fits fits]
  generalize decode k _ = result
  cases result with
  | ok i => exact ⟨fun _ => ⟨i, rfl⟩, fun _ => ⟨i, rfl⟩⟩
  | error e => exact ⟨(fun ⟨_, h⟩ => nomatch h), (fun ⟨_, h⟩ => nomatch h)⟩

/-- No tag of a resolution scope is reserved. -/
instance : Total (CodedIndex.read s .resolutionScope) (s.coded .resolutionScope) where
  succeeds c fits := by
    have every : ∀ tag < 4, (CodedKind.target? .resolutionScope tag).isSome := by decide
    exact (read_succeeds_iff fits).2 (every _ (Nat.mod_lt _ (by decide)))

end CodedIndex

/-! ## Columns -/

/-- The columns of a row are a field of the size of the row. -/
class LawfulColumns (γ : Type) [Columns γ] : Prop where
  window : ∀ s, Window (Columns.read s : Reader γ) (s.rowSize (Columns.table γ))

attribute [instance] LawfulColumns.window

instance : LawfulColumns ModuleColumns where
  window s := by
    simp only [Columns.read, Columns.table, Schema.rowSize]
    exact Window.of_eq (by simp only [Schema.strings, Schema.guids]; omega)

instance : LawfulColumns TypeRefColumns where
  window s := by
    simp only [Columns.read, Columns.table, Schema.rowSize]
    exact Window.of_eq (by simp only [Schema.strings]; omega)

instance : LawfulColumns TypeDefColumns where
  window s := by
    simp only [Columns.read, Columns.table, Schema.rowSize]
    exact Window.of_eq (by simp only [Schema.strings, Schema.index]; omega)

instance : LawfulColumns MethodDefColumns where
  window s := by
    simp only [Columns.read, Columns.table, Schema.rowSize]
    exact Window.of_eq (by simp only [Schema.strings, Schema.blobs, Schema.index]; omega)

instance : LawfulColumns ParamColumns where
  window s := by
    simp only [Columns.read, Columns.table, Schema.rowSize]
    exact Window.of_eq (by simp only [Schema.strings]; omega)

/-- The columns of a row can be read wherever its bytes are there. -/
class TotalColumns (γ : Type) [Columns γ] : Prop where
  total : ∀ s, Total (Columns.read s : Reader γ) (s.rowSize (Columns.table γ))

attribute [instance] TotalColumns.total

instance : TotalColumns ModuleColumns where
  total s := by
    simp only [Columns.read, Columns.table, Schema.rowSize]
    exact Total.of_eq (by simp only [Schema.strings, Schema.guids]; omega)

instance : TotalColumns TypeRefColumns where
  total s := by
    simp only [Columns.read, Columns.table, Schema.rowSize]
    exact Total.of_eq (by simp only [Schema.strings]; omega)

instance : TotalColumns MethodDefColumns where
  total s := by
    simp only [Columns.read, Columns.table, Schema.rowSize]
    exact Total.of_eq (by simp only [Schema.strings, Schema.blobs, Schema.index]; omega)

instance : TotalColumns ParamColumns where
  total s := by
    simp only [Columns.read, Columns.table, Schema.rowSize]
    exact Total.of_eq (by simp only [Schema.strings]; omega)

namespace TypeDefColumns

/-- The tag in the base column of the type definition at a position. -/
def baseTag (s : Schema) (data : Bytes) (pos : Nat) : Nat :=
  s.tagAt .typeDefOrRef data (pos + 4 + 2 * s.strings)

/-- A type definition that is there is read unless its base has the reserved tag. -/
theorem read_succeeds_iff {s : Schema} {data : Bytes} {pos : Nat}
    (fits : pos + s.rowSize .typeDef ≤ data.size) :
    (∃ v c', (Columns.read s : Reader TypeDefColumns) ⟨data, pos⟩ = .ok v c') ↔
      baseTag s data pos ≠ 3 := by
  have reserved : ∀ tag < 4, (CodedKind.target? .typeDefOrRef tag).isSome ↔ tag ≠ 3 := by decide
  have place : pos + 4 + Schema.width s.wideStrings + Schema.width s.wideStrings =
      pos + 4 + 2 * s.strings := by simp only [Schema.strings]; omega
  simp only [Schema.rowSize, Schema.strings, Schema.index] at fits
  obtain ⟨flags, first⟩ := Total.succeeds (r := u32) ⟨data, pos⟩ (by simp only; omega)
  obtain ⟨name, second⟩ := Total.succeeds (r := index s.wideStrings) ⟨data, pos + 4⟩
    (by simp only; omega)
  obtain ⟨space, third⟩ := Total.succeeds (r := index s.wideStrings)
    ⟨data, pos + 4 + Schema.width s.wideStrings⟩ (by simp only; omega)
  simp only [Columns.read, bind_of_ok first, bind_of_ok second, bind_of_ok third, place]
  have sound : (∃ base, CodedIndex.read s .typeDefOrRef ⟨data, pos + 4 + 2 * s.strings⟩ =
      .ok base ⟨data, pos + 4 + 2 * s.strings + s.coded .typeDefOrRef⟩) ↔
        baseTag s data pos ≠ 3 :=
    (CodedIndex.read_succeeds_iff (by simp only [Schema.strings]; omega)).trans
      (reserved _ (Nat.mod_lt _ (by decide)))
  rw [← sound]
  -- What stands in front of the base is always read, and so is what stands behind it.
  constructor
  · rintro ⟨v, c', h⟩
    obtain ⟨base, c₁, read, -⟩ := bind_eq_ok.1 h
    exact ⟨base, Window.moves read ▸ read⟩
  · rintro ⟨base, read⟩
    obtain ⟨fields, fourth⟩ := Total.succeeds (r := index (s.isWide .field))
      ⟨data, pos + 4 + 2 * s.strings + s.coded .typeDefOrRef⟩
      (by simp only [Schema.strings]; omega)
    obtain ⟨methods, fifth⟩ := Total.succeeds (r := index (s.isWide .methodDef))
      ⟨data, pos + 4 + 2 * s.strings + s.coded .typeDefOrRef + Schema.width (s.isWide .field)⟩
      (by simp only [Schema.strings]; omega)
    rw [bind_of_ok read, bind_of_ok fourth, bind_of_ok fifth]
    exact ⟨_, _, rfl⟩

end TypeDefColumns

/-! ## Rows -/

namespace Table

variable {γ : Type} [Columns γ] {s : Schema} {data : Bytes} {pos : Nat}

/-- Rows that stand one behind the other from a position on, and are numbered from `rid` on. -/
inductive RowsFrom (s : Schema) (data : Bytes) : Nat → Nat → List (Row γ) → Prop
  | nil {pos rid : Nat} : RowsFrom s data pos rid []
  | cons {pos rid : Nat} {columns : γ} {later : List (Row γ)}
      (read : Columns.read s ⟨data, pos⟩ = .ok columns ⟨data, pos + s.rowSize (Columns.table γ)⟩)
      (rest : RowsFrom s data (pos + s.rowSize (Columns.table γ)) (rid + 1) later) :
      RowsFrom s data pos rid (⟨rid, pos, columns⟩ :: later)

theorem RowsFrom.getElem? {rid k : Nat} {rows : List (Row γ)} {row : Row γ}
    (h : RowsFrom s data pos rid rows) (there : rows[k]? = some row) :
    row.rid = rid + k ∧ row.offset = pos + k * s.rowSize (Columns.table γ) ∧
      ∃ c', Columns.read s ⟨data, pos + k * s.rowSize (Columns.table γ)⟩ = .ok row.columns c' := by
  induction h generalizing k with
  | nil => cases there
  | cons read rest ih =>
    cases k with
    | zero =>
      cases there
      simp only [Nat.zero_mul, Nat.add_zero]
      exact ⟨trivial, trivial, _, read⟩
    | succ k =>
      obtain ⟨number, place, c', columns⟩ := ih there
      rw [Nat.add_assoc, Nat.add_comm (s.rowSize _), ← Nat.succ_mul] at place columns
      exact ⟨by omega, place, c', columns⟩

theorem RowsFrom.rids {rid : Nat} {rows : List (Row γ)} (h : RowsFrom s data pos rid rows) :
    rows.map Row.rid = List.range' rid rows.length := by
  induction h with
  | nil => rfl
  | cons read rest ih => rw [List.map_cons, ih, List.length_cons, List.range'_succ]

variable [LawfulColumns γ]

theorem rowsFrom_of_readRows {n : Nat} {seen rows : Array (Row γ)} {c c' : Cursor}
    (h : readRows s n seen c = .ok rows c') :
    ∃ later, rows.toList = seen.toList ++ later ∧ later.length = n ∧
      RowsFrom s c.data c.pos (seen.size + 1) later := by
  induction n generalizing seen c with
  | zero =>
    obtain ⟨rfl, -⟩ := pure_eq_ok.1 h
    exact ⟨[], by simp, rfl, .nil⟩
  | succ n ih =>
    obtain ⟨row, c₁, one, later⟩ := bind_eq_ok.1 h
    obtain ⟨columns, read, rfl⟩ := map_eq_ok.1 one
    have moved := Window.moves read
    subst moved
    obtain ⟨later, all, count, rest⟩ := ih later
    rw [Array.size_push] at rest
    exact ⟨_ :: later, by simpa using all, by simp [count], .cons read rest⟩

theorem readRows_of_columns {n : Nat} {seen : Array (Row γ)}
    (all : ∀ k < n, ∃ columns c',
      (Columns.read s : Reader γ) ⟨data, pos + k * s.rowSize (Columns.table γ)⟩ = .ok columns c') :
    ∃ rows c', readRows s n seen ⟨data, pos⟩ = .ok rows c' := by
  induction n generalizing seen pos with
  | zero => exact ⟨seen, _, rfl⟩
  | succ n ih =>
    obtain ⟨columns, c', read⟩ := all 0 (Nat.succ_pos n)
    rw [Nat.zero_mul, Nat.add_zero] at read
    have moved := Window.moves read
    subst moved
    have one : Row.read s (seen.size + 1) ⟨data, pos⟩ = .ok ⟨seen.size + 1, pos, columns⟩
        ⟨data, pos + s.rowSize (Columns.table γ)⟩ := map_eq_ok.2 ⟨columns, read, rfl⟩
    rw [readRows, bind_of_ok one]
    refine ih fun k less => ?_
    rw [Nat.add_assoc, Nat.add_comm (s.rowSize _), ← Nat.succ_mul]
    exact all (k + 1) (Nat.succ_lt_succ less)

theorem read_eq_ok {count : Nat} {t : Table γ} (h : (Table.read γ s count).run data = .ok t) :
    t.rows.size = count ∧ RowsFrom s data 0 1 t.rows.toList := by
  obtain ⟨c', h⟩ := run_eq_ok.1 h
  obtain ⟨rows, all, rfl⟩ := map_eq_ok.1 h
  obtain ⟨later, same, size, rest⟩ := rowsFrom_of_readRows all
  have same : rows.toList = later := by simpa using same
  rw [← same] at size rest
  exact ⟨size, rest⟩

end Table

/-! ## Tables in a stream -/

namespace Table

variable {γ : Type} [Columns γ] {s : Schema} {stream : Bytes} {offset count : Nat} {t : Table γ}

/-- The rows of a table are those that stand in a stream from a position on. -/
structure StandsAt (t : Table γ) (s : Schema) (stream : Bytes) (offset count : Nat) : Prop where
  numbers : ∀ rid, (t.row? rid).isSome ↔ 1 ≤ rid ∧ rid ≤ count
  decoded : ∀ rid row, t.row? rid = some row →
    row.rid = rid ∧ row.offset = (rid - 1) * s.rowSize (Columns.table γ) ∧
      (Columns.read s).run (stream.extract (offset + (rid - 1) * s.rowSize (Columns.table γ))
        (offset + rid * s.rowSize (Columns.table γ))) = .ok row.columns

theorem row_stop_le {k size : Nat} (less : k < count) :
    offset + k * size + size ≤ offset + count * size := by
  rw [Nat.add_assoc, ← Nat.succ_mul]
  exact Nat.add_le_add_left (Nat.mul_le_mul_right _ less) _

variable [LawfulColumns γ] (fits : offset + count * s.rowSize (Columns.table γ) ≤ stream.size)
include fits

/-- Columns are read alike in the stream and in the part of it that begins with the table. -/
theorem read_columns_iff {k : Nat} (less : k < count) {columns : γ} :
    (∃ c', Columns.read s ⟨stream.extract offset stream.size,
        0 + k * s.rowSize (Columns.table γ)⟩ = .ok columns c') ↔
      ∃ c', Columns.read s ⟨stream, offset + k * s.rowSize (Columns.table γ)⟩ = .ok columns c' := by
  have inside := Nat.le_trans (@row_stop_le offset count k _ less) fits
  have same : Bytes.Match (stream.extract offset stream.size)
      (0 + k * s.rowSize (Columns.table γ)) stream (offset + k * s.rowSize (Columns.table γ))
      (s.rowSize (Columns.table γ)) := by
    rw [Nat.zero_add]
    exact Bytes.Match.extract inside
  constructor
  · rintro ⟨c', h⟩
    exact ⟨_, Window.carries h inside same⟩
  · rintro ⟨c', h⟩
    refine ⟨_, Window.carries h ?_ same.symm⟩
    rw [Array.size_extract]
    omega

/-- A table is read exactly if the columns of its rows are. -/
theorem read_succeeds_iff :
    (∃ t, (Table.read γ s count).run (stream.extract offset stream.size) = .ok t) ↔
      ∀ k < count, ∃ columns c', (Columns.read s : Reader γ)
        ⟨stream, offset + k * s.rowSize (Columns.table γ)⟩ = .ok columns c' := by
  constructor
  · rintro ⟨t, h⟩ k less
    obtain ⟨size, rows⟩ := read_eq_ok h
    have there : t.rows.toList[k]? = some t.rows[k] := by simp [size, less]
    obtain ⟨-, -, columns⟩ := rows.getElem? there
    exact ⟨_, (read_columns_iff fits less).1 columns⟩
  · intro all
    obtain ⟨rows, c', h⟩ := @readRows_of_columns _ _ s _ _ _ count #[] fun k less => by
      obtain ⟨columns, h⟩ := all k less
      exact ⟨columns, (read_columns_iff fits less).2 h⟩
    exact ⟨_, run_eq_ok.2 ⟨c', map_eq_ok.2 ⟨rows, h, rfl⟩⟩⟩

theorem standsAt_of_read
    (h : (Table.read γ s count).run (stream.extract offset stream.size) = .ok t) :
    t.StandsAt s stream offset count := by
  obtain ⟨size, rows⟩ := read_eq_ok h
  constructor
  · intro rid
    rw [row?_isSome, rowCount, size]
  · intro rid row there
    obtain ⟨low, high⟩ := (row?_isSome t rid).1 (by rw [there]; rfl)
    rw [rowCount, size] at high
    obtain ⟨k, rfl⟩ := Nat.exists_eq_add_of_le' low
    obtain ⟨number, place, read⟩ := rows.getElem? (by simpa [row?] using there)
    obtain ⟨c', read⟩ := (read_columns_iff fits high).1 read
    have decoded := Window.run_extract read (Nat.le_trans (row_stop_le high) fits)
    rw [Nat.add_sub_cancel, Nat.succ_mul, ← Nat.add_assoc]
    exact ⟨by omega, by simpa using place, decoded⟩

end Table

end ManagedImage
