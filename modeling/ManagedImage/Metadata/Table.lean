/-
Decoded tables. A table is its rows in order and the size that its schema gives
them; rows are counted from one.

Main statement: there is a row for each number from one to the count of rows,
and for no other (`row?_isSome`).
-/
import ManagedImage.Metadata.Row

namespace ManagedImage

/-- The rows of a table. -/
structure Table (γ : Type) where
  rows : Array (Row γ)
  rowSize : Nat
deriving DecidableEq

namespace Table

variable {γ : Type}

/-- A table that the stream does not have. -/
def empty (γ : Type) [Columns γ] (s : Schema) : Table γ := ⟨#[], s.rowSize (Columns.table γ)⟩

/-- Reads `n` more rows behind those already `seen`. -/
def readRows [Columns γ] (s : Schema) : Nat → Array (Row γ) → Reader (Array (Row γ))
  | 0, seen => pure seen
  | n + 1, seen => do readRows s n (seen.push (← Row.read s (seen.size + 1)))

/-- Reads a table of `count` rows. -/
def read (γ : Type) [Columns γ] (s : Schema) (count : Nat) : Reader (Table γ) :=
  return ⟨← readRows s count #[], s.rowSize (Columns.table γ)⟩

/-- The count of rows. -/
def rowCount (t : Table γ) : Nat := t.rows.size

/-- The size of the table in bytes. -/
def size (t : Table γ) : Nat := t.rowCount * t.rowSize

/-- The row of a number. -/
def row? (t : Table γ) : Nat → Option (Row γ)
  | 0 => none
  | n + 1 => t.rows[n]?

theorem row?_isSome (t : Table γ) (rid : Nat) :
    (t.row? rid).isSome ↔ 1 ≤ rid ∧ rid ≤ t.rowCount := by
  cases rid with
  | zero => exact ⟨nofun, fun h => absurd h.1 (by omega)⟩
  | succ n =>
    rw [row?, isSome_getElem?, rowCount]
    omega

end Table

namespace TypeDefColumns

/--
The numbers of the methods of a type, out of `count` methods in all. The run
begins at the type's own list and ends at the list of the next type, or behind
the last method for the last type; number zero is no method.
-/
def methods (types : Table TypeDefColumns) (r : Row TypeDefColumns) (count : Nat) : Span :=
  let start := max r.columns.methodList.toNat 1
  let stop :=
    match types.row? (r.rid + 1) with
    | some next => next.columns.methodList.toNat
    | none => count + 1
  ⟨start, min (max stop start) (count + 1)⟩

end TypeDefColumns

end ManagedImage
