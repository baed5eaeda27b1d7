/-
The methods that the types of a table own. A type stores where its run of methods begins
and nothing says where it ends, which is where the run of the next type begins. Nothing is
checked, so a list may be zero, fall back behind that of the type in front, or point past
the last method; a run then begins at one, is empty, or is cut off, and no number in a run
is that of no method (`TypeDefColumns.mem_methods`).

Where the lists ascend and stop one past the last method, nothing of that happens but at
zero: the runs stand one behind the other from the first list to the last method
(`TypeDefColumns.tile_methods`), so each method from the first list on has one owner.

Main statement: `TypeDefColumns.methods_partition`.
-/
import Mathlib.Data.List.Basic
import Mathlib.Data.List.Pairwise
import ManagedImage.Proofs.Machine.Words
import ManagedImage.Proofs.TableRows

namespace ManagedImage

/-! ## Ranges one behind the other -/

/-- Ranges that begin at a position, each where the one in front of it ends, and end at another. -/
inductive Span.Tile : Nat → Nat → List Span → Prop
  | nil {pos : Nat} : Tile pos pos []
  | cons {start middle stop : Nat} {later : List Span} (order : start ≤ middle)
      (rest : Tile middle stop later) : Tile start stop (⟨start, middle⟩ :: later)

namespace Span.Tile

variable {start stop pos : Nat} {spans : List Span}

theorem le (h : Tile start stop spans) : start ≤ stop := by
  induction h with
  | nil => exact Nat.le_refl _
  | cons order rest ih => exact Nat.le_trans order ih

/-- The positions between the two ends are those in the ranges. -/
theorem mem_iff (h : Tile start stop spans) :
    (∃ span ∈ spans, pos ∈ span) ↔ start ≤ pos ∧ pos < stop := by
  induction h with
  | nil =>
    simp only [List.not_mem_nil, false_and, exists_false, false_iff]
    omega
  | cons order rest ih =>
    have forward := rest.le
    rw [List.exists_mem_cons_iff, ih, mem_def]
    dsimp only
    omega

/-- A position is in no two of the ranges. -/
theorem apart (h : Tile start stop spans) :
    spans.Pairwise fun a b => ∀ pos ∈ a, pos ∉ b := by
  induction h with
  | nil => exact .nil
  | cons order rest ih =>
    refine List.pairwise_cons.2 ⟨fun b mem pos own other => ?_, ih⟩
    have behind := (rest.mem_iff.1 ⟨b, mem, other⟩).1
    exact Nat.not_lt_of_le behind own.2

theorem stop_eq_start (h : Tile start stop spans) {k : Nat} {a b : Span} (first : spans[k]? = some a)
    (second : spans[k + 1]? = some b) : a.stop = b.start := by
  induction h generalizing k with
  | nil => cases first
  | cons order rest ih =>
    cases k with
    | zero =>
      cases first
      cases rest with
      | nil => cases second
      | cons order' rest' => cases second; rfl
    | succ k => exact ih first second

end Span.Tile

/-! ## Rows by their numbers -/

namespace Table

variable {γ : Type} {t : Table γ} {row : Row γ}

theorem exists_cons_of_row?_one (there : t.row? 1 = some row) :
    ∃ later, t.rows.toList = row :: later := by
  rw [row?, ← Array.getElem?_toList] at there
  cases rows : t.rows.toList with
  | nil => rw [rows] at there; cases there
  | cons first later => rw [rows] at there; cases there; exact ⟨later, rfl⟩

variable [Columns γ] [LawfulColumns γ] {s : Schema} {data : Bytes} {count : Nat}

theorem rid_of_getElem? (read : (Table.read γ s count).run data = .ok t) {k : Nat}
    (there : t.rows.toList[k]? = some row) : row.rid = k + 1 := by
  rw [((read_eq_ok read).2.getElem? there).1, Nat.add_comm]

end Table

namespace TypeDefColumns

variable {types : Table TypeDefColumns} {row next : Row TypeDefColumns} {count id : Nat}

/-! ## Runs of methods -/

/-- The first number in the run of a type, if there is one. -/
def firstMethod (row : Row TypeDefColumns) : Nat := max row.columns.methodList.toNat 1

/-- Whatever the lists hold, a number in a run is that of a method. -/
theorem mem_methods (mem : id ∈ methods types row count) : 1 ≤ id ∧ id ≤ count := by
  simp only [methods, Span.mem_def] at mem
  omega

theorem methods_of_next (there : types.row? (row.rid + 1) = some next) :
    methods types row count =
      ⟨firstMethod row, min (max next.columns.methodList.toNat (firstMethod row)) (count + 1)⟩ := by
  rw [methods, there]
  rfl

theorem methods_of_last (last : types.row? (row.rid + 1) = none) :
    methods types row count =
      ⟨firstMethod row, min (max (count + 1) (firstMethod row)) (count + 1)⟩ := by
  rw [methods, last]
  rfl

/-- The lists of rows ascend and end one past the last method at most. -/
structure Ordered (rows : List (Row TypeDefColumns)) (count : Nat) : Prop where
  ascending : rows.Pairwise fun a b => a.columns.methodList ≤ b.columns.methodList
  bounded : ∀ row ∈ rows, row.columns.methodList.toNat ≤ count + 1

theorem Ordered.tail {rows : List (Row TypeDefColumns)} (h : Ordered (row :: rows) count) :
    Ordered rows count :=
  ⟨(List.pairwise_cons.1 h.ascending).2, fun _ mem => h.bounded _ (List.mem_cons_of_mem _ mem)⟩

/-- The runs of a row and of those behind it stand one behind the other up to the last method. -/
theorem tile_methods {front later : List (Row TypeDefColumns)}
    (numbered : ∀ k row, types.rows.toList[k]? = some row → row.rid = k + 1)
    (split : types.rows.toList = front ++ row :: later) (ordered : Ordered (row :: later) count) :
    Span.Tile (firstMethod row) (count + 1)
      ((row :: later).map fun row => methods types row count) := by
  induction later generalizing front row with
  | nil =>
    have here : row.rid = front.length + 1 := numbered _ _ (by rw [split]; simp)
    have last : types.row? (row.rid + 1) = none := by
      rw [here, Table.row?, ← Array.getElem?_toList, split]
      simp
    have low := ordered.bounded row List.mem_cons_self
    have run : methods types row count = ⟨firstMethod row, count + 1⟩ := by
      rw [methods_of_last last, firstMethod]
      congr 1
      omega
    rw [List.map_singleton, run]
    refine .cons ?_ .nil
    rw [firstMethod]
    omega
  | cons next later ih =>
    have here : row.rid = front.length + 1 := numbered _ _ (by rw [split]; simp)
    have there : types.row? (row.rid + 1) = some next := by
      rw [here, Table.row?, ← Array.getElem?_toList, split]
      simp
    have order := UInt32.le_iff_toNat_le.1 ((List.pairwise_cons.1 ordered.ascending).1 next List.mem_cons_self)
    have low := ordered.bounded next (List.mem_cons_of_mem _ List.mem_cons_self)
    have run : methods types row count = ⟨firstMethod row, firstMethod next⟩ := by
      rw [methods_of_next there]
      simp only [firstMethod]
      congr 1
      omega
    have rest := @ih next (front ++ [row]) (by rw [split, List.append_assoc, List.singleton_append])
      ordered.tail
    rw [List.map_cons, run]
    refine .cons ?_ rest
    simp only [firstMethod]
    omega

section Tiled

variable {other : Row TypeDefColumns} {first rid : Nat}
  (tiled : Span.Tile first (count + 1)
    (types.rows.toList.map fun row => methods types row count))
include tiled

/-- The methods that have an owner. -/
theorem owned_iff :
    (∃ row ∈ types.rows, id ∈ methods types row count) ↔ first ≤ id ∧ id ≤ count := by
  have between := @Span.Tile.mem_iff _ _ id _ tiled
  simpa [Nat.lt_succ_iff] using between

theorem owner_unique (mem : row ∈ types.rows) (mem' : other ∈ types.rows)
    (own : id ∈ methods types row count) (own' : id ∈ methods types other count) :
    row = other := by
  have both : Std.Symm fun a b : Row TypeDefColumns =>
      ∀ id ∈ methods types a count, id ∉ methods types b count :=
    ⟨fun a b free id own other => free id other own⟩
  by_contra differ
  exact (List.pairwise_map.1 tiled.apart).forall (Array.mem_toList_iff.2 mem)
    (Array.mem_toList_iff.2 mem') differ id own own'

theorem methods_stop_eq_start (there : types.row? rid = some row)
    (behind : types.row? (rid + 1) = some next) :
    (methods types row count).stop = (methods types next count).start := by
  cases rid with
  | zero => cases there
  | succ k =>
    rw [Table.row?, ← Array.getElem?_toList] at there behind
    exact tiled.stop_eq_start (by rw [List.getElem?_map, there]; rfl)
      (by rw [List.getElem?_map, behind]; rfl)

end Tiled

end TypeDefColumns

/-! ## Runs in 32 bits -/

/-- The run of a type with row numbers and counts of 32 bits. -/
def Machine.methods (types : Table TypeDefColumns) (row : Row TypeDefColumns) (count : Nat) :
    Run Span := do
  let start := max row.columns.methodList.toNat 1
  let stop ← match types.row? (← add 32 row.rid 1) with
    | some next => pure next.columns.methodList.toNat
    | none => add 32 count 1
  return ⟨start, min (max stop start) (← add 32 count 1)⟩

theorem Machine.methods_eq {types : Table TypeDefColumns} {row : Row TypeDefColumns} {count : Nat}
    (number : row.rid + 1 < 2 ^ 32) (few : count + 1 < 2 ^ 32) :
    methods types row count = .ok (TypeDefColumns.methods types row count) := by
  rw [methods, add_eq number, ok_bind, add_eq few]
  cases there : types.row? (row.rid + 1) with
  | some next => rw [TypeDefColumns.methods_of_next there]; rfl
  | none => rw [TypeDefColumns.methods_of_last there]; rfl

namespace TypeDefColumns

/--
**The runs of methods of a table of types.** With fewer than `2 ^ 32 - 1` types and methods
no run is broken off in 32 bits, and whatever the lists hold each number in a run is that of
a method. If the lists ascend and end one past the last method at most, each run ends where
the next one begins, no two have a number in common, and the methods from the first list on
are those that have an owner, each of them one.
-/
theorem methods_partition {s : Schema} {data : Bytes} {types : Table TypeDefColumns}
    {typeCount count : Nat} (read : (Table.read TypeDefColumns s typeCount).run data = .ok types)
    (fewTypes : typeCount < 2 ^ 32 - 1) (few : count < 2 ^ 32 - 1) :
    (∀ row ∈ types.rows,
      Machine.methods types row count = .ok (methods types row count) ∧
      ∀ id ∈ methods types row count, 1 ≤ id ∧ id ≤ count) ∧
    ∀ first, types.row? 1 = some first →
      types.rows.toList.Pairwise (fun a b => a.columns.methodList ≤ b.columns.methodList) →
      (∀ row ∈ types.rows, row.columns.methodList.toNat ≤ count + 1) →
      (∀ rid row next, types.row? rid = some row → types.row? (rid + 1) = some next →
        (methods types row count).stop = (methods types next count).start) ∧
      (∀ row ∈ types.rows, ∀ other ∈ types.rows, row.rid ≠ other.rid →
        ∀ id ∈ methods types row count, id ∉ methods types other count) ∧
      (∀ id, (∃ row ∈ types.rows, id ∈ methods types row count) ↔
        max 1 first.columns.methodList.toNat ≤ id ∧ id ≤ count) ∧
      ∀ id, max 1 first.columns.methodList.toNat ≤ id → id ≤ count →
        ∃! row, row ∈ types.rows ∧ id ∈ methods types row count := by
  have numbered : ∀ k row, types.rows.toList[k]? = some row → row.rid = k + 1 :=
    fun _ _ there => Table.rid_of_getElem? read there
  constructor
  · intro row mem
    obtain ⟨k, there⟩ := List.mem_iff_getElem?.1 (Array.mem_toList_iff.2 mem)
    have number := numbered k row there
    have inside := (List.getElem?_eq_some_iff.1 there).1
    rw [Array.length_toList, (Table.read_eq_ok read).1] at inside
    exact ⟨Machine.methods_eq (by omega) (by omega), fun id mem => mem_methods mem⟩
  intro first there ascending bounded
  obtain ⟨later, split⟩ := Table.exists_cons_of_row?_one there
  have tiled : Span.Tile (max 1 first.columns.methodList.toNat) (count + 1)
      (types.rows.toList.map fun row => methods types row count) := by
    rw [split, Nat.max_comm]
    refine @tile_methods types first count [] later numbered split ?_
    exact split ▸ ⟨ascending, fun row mem => bounded row (Array.mem_toList_iff.1 mem)⟩
  refine ⟨fun rid row next there behind => methods_stop_eq_start tiled there behind,
    fun row mem other mem' differ id own own' => ?_, fun id => owned_iff tiled, fun id low high => ?_⟩
  · exact differ (congrArg Row.rid (owner_unique tiled mem mem' own own'))
  · obtain ⟨row, mem, own⟩ := (owned_iff tiled).2 ⟨low, high⟩
    exact ⟨row, ⟨mem, own⟩, fun other owner => owner_unique tiled owner.1 mem owner.2 own⟩

/-- Rows with nothing in them but where their runs of methods begin. -/
def rowsOfLists (lists : List UInt8) : Bytes :=
  (lists.flatMap fun list => List.replicate 12 0 ++ [list, 0]).toArray

/-- The first list is zero, the second run is empty, and the last list is one past three methods. -/
def raggedTypes : Table TypeDefColumns :=
  let row (rid : Nat) (list : UInt32) : Row TypeDefColumns :=
    ⟨rid, 14 * (rid - 1), ⟨0, 0, 0, ⟨.typeDef, 0⟩, 0, list⟩⟩
  ⟨#[row 1 0, row 2 2, row 3 2, row 4 4], 14⟩

theorem methods_partition_ragged :
    (Table.read TypeDefColumns (.ofCounts 0 #[]) 4).run (rowsOfLists [0, 2, 2, 4]) =
        .ok raggedTypes ∧
      raggedTypes.rows.toList.map (fun row => methods raggedTypes row 3) =
        [⟨1, 2⟩, ⟨2, 2⟩, ⟨2, 4⟩, ⟨4, 4⟩] ∧
      ∃! row, row ∈ raggedTypes.rows ∧ 3 ∈ methods raggedTypes row 3 := by
  obtain ⟨types, read, rfl⟩ : ∃ types, (Table.read TypeDefColumns (.ofCounts 0 #[]) 4).run
      (rowsOfLists [0, 2, 2, 4]) = .ok types ∧ types = raggedTypes :=
    Except.exists_of_check (by decide +kernel)
  have few : 3 < 2 ^ 32 - 1 := by decide
  obtain ⟨-, -, -, owned⟩ := (methods_partition read (by decide) few).2 _ rfl
    (by decide) (by decide)
  exact ⟨read, by decide, owned 3 (by decide) (by decide)⟩

end TypeDefColumns

end ManagedImage
