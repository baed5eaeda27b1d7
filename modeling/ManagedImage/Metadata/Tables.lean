/-
The stream of tables. Its header has a mask of the present tables and the row
count of each; behind it the tables follow each other in the order of their
numbers. Nothing says where a table begins, so each is placed by the sizes of
those in front of it, and a table of unknown layout makes the rest unreadable.
-/
import ManagedImage.Metadata.Table
import ManagedImage.Progress

namespace ManagedImage

/-- The header of the stream of tables. -/
structure TablesHeader where
  reserved : UInt32
  major : UInt8
  minor : UInt8
  heapSizes : UInt8
  /-- The mask of present tables. -/
  valid : UInt64
  /-- The mask of sorted tables. -/
  sorted : UInt64
  /-- The present tables and their row counts, in order. -/
  present : List (TableId × UInt32)
deriving DecidableEq, Repr

namespace TablesHeader

/-- The numbers of the bits that are set in a mask, ascending. -/
def setBits (mask : UInt64) : List Nat := (List.range 64).filter mask.toNat.testBit

/-- Reads the row counts of tables with the given numbers. -/
def readCounts : List Nat → Reader (List (TableId × UInt32))
  | [] => pure []
  | number :: later => do
    match TableId.ofNat? number with
    | none => throw (.unsupportedTable number)
    | some table =>
      let count ← Reader.u32
      return (table, count) :: (← readCounts later)

/-- Reads the header, with the extra word that a heap size flag announces. -/
def read : Reader TablesHeader := do
  let reserved ← Reader.u32
  let major ← Reader.u8
  let minor ← Reader.u8
  let heapSizes ← Reader.u8
  Reader.advance 1
  let valid ← Reader.u64
  let sorted ← Reader.u64
  if valid = 0 then Reader.malformed .noTables
  let present ← readCounts (setBits valid)
  if heapSizes &&& 0x40 ≠ 0 then Reader.advance 4
  return { reserved, major, minor, heapSizes, valid, sorted, present }

/-- The row count of a table; an absent one has no rows. -/
def rowCount (h : TablesHeader) (t : TableId) : UInt32 := (h.present.lookup t).getD 0

/-- The row counts of all tables, in order. -/
def rowCounts (h : TablesHeader) : Array UInt32 := (TableId.all.map h.rowCount).toArray

/-- The widths of the columns. -/
def schema (h : TablesHeader) : Schema := .ofCounts h.heapSizes h.rowCounts

/-- The count of present tables. -/
def tableCount (h : TablesHeader) : Nat := (setBits h.valid).length

/-- Whether a table is present. -/
def hasTable (h : TablesHeader) (t : TableId) : Bool := h.valid.toNat.testBit t.toNat

end TablesHeader

/-- Where a table lies in the stream. -/
structure Placement where
  table : TableId
  offset : Nat
  rowCount : Nat
  rowSize : Nat
deriving DecidableEq, Repr

namespace Placement

/-- The size of the table in bytes. -/
def size (p : Placement) : Nat := p.rowCount * p.rowSize

/-- The position behind the table. -/
def stop (p : Placement) : Nat := p.offset + p.size

/-- Places tables one behind the other from `offset` on, in a stream of `size` bytes. -/
def layOut (s : Schema) (size : Nat) :
    Nat → List (TableId × UInt32) → Progress Error Placement
  | _, [] => ⟨[], none⟩
  | offset, (table, count) :: rest =>
    let p : Placement := ⟨table, offset, count.toNat, s.rowSize table⟩
    if p.stop ≤ size then
      let later := layOut s size p.stop rest
      ⟨p :: later.done, later.fault⟩
    else
      ⟨[], some (.malformed (.tablePastEnd table p.rowCount p.rowSize offset size))⟩

end Placement

/-- The stream of tables. -/
structure Tables extends TablesHeader where
  placements : List Placement
  modules : Table ModuleColumns
  typeRefs : Table TypeRefColumns
  typeDefs : Table TypeDefColumns
  methodDefs : Table MethodDefColumns
  params : Table ParamColumns
deriving DecidableEq

namespace Tables

/-- The header of a stream and the places of its tables up to the first that does not fit. -/
def parse (stream : Bytes) : Except Error (TablesHeader × Progress Error Placement) :=
  match TablesHeader.read (.start stream) with
  | .ok header after =>
    .ok (header, Placement.layOut header.schema stream.size after.pos header.present)
  | .error e _ => .error e

/-- The places in front of the first table that does not fit. -/
def placed (stream : Bytes) : List Placement :=
  match parse stream with
  | .ok (_, places) => places.done
  | .error _ => []

/-- Decodes a table where it was placed. -/
def readTable (γ : Type) [Columns γ] (stream : Bytes) (s : Schema)
    (placements : List Placement) : Except Error (Table γ) :=
  match placements.find? (·.table = Columns.table γ) with
  | some p => (Table.read γ s p.rowCount).run (stream.extract p.offset stream.size)
  | none => .ok (.empty γ s)

/-- Reads a whole stream. -/
def read (stream : Bytes) : Except Error Tables := do
  let (header, places) ← parse stream
  let placements ← places.toExcept
  let s := header.schema
  let modules ← readTable ModuleColumns stream s placements
  let typeRefs ← readTable TypeRefColumns stream s placements
  let typeDefs ← readTable TypeDefColumns stream s placements
  let methodDefs ← readTable MethodDefColumns stream s placements
  let params ← readTable ParamColumns stream s placements
  return { header with placements, modules, typeRefs, typeDefs, methodDefs, params }

/-- The position behind the last table. -/
def stop (t : Tables) : Nat := (t.placements.getLast?.map Placement.stop).getD 24

end Tables

end ManagedImage
