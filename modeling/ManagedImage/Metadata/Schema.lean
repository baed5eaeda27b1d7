/-
The widths of table columns. Nothing in the tables' stream says how wide a
column is: an index into a heap is wide if the heap's size flag is set, an index
into a table if the table has 65,536 rows or more, and a coded index if the last
row of one of its tables has no room beside the tag in 16 bits. The
size of a row is the sum of its columns.
-/
import ManagedImage.Error

namespace ManagedImage

/-- What the widths follow from. -/
structure Schema where
  wideStrings : Bool
  wideGuids : Bool
  wideBlobs : Bool
  /-- The row counts in the order of the tables; a table past the end has no rows. -/
  counts : Array UInt32
deriving DecidableEq, Repr

namespace Schema

/-- The schema of a flag byte and the row counts. -/
def ofCounts (heapSizes : UInt8) (counts : Array UInt32) : Schema where
  wideStrings := heapSizes &&& 0x01 ≠ 0
  wideGuids := heapSizes &&& 0x02 ≠ 0
  wideBlobs := heapSizes &&& 0x04 ≠ 0
  counts := counts

/-- The count of rows of a table. -/
def rows (s : Schema) (t : TableId) : Nat := (s.counts.getD t.toNat 0).toNat

/-- Whether an index into a table is wide. -/
def isWide (s : Schema) (t : TableId) : Bool := 0x10000 ≤ s.rows t

/-- Whether a coded index is wide. -/
def isWideCoded (s : Schema) (k : CodedKind) : Bool :=
  k.candidates.any fun t => 0x10000 ≤ s.rows t * k.tags

/-- The size of an index in bytes. -/
def width (wide : Bool) : Nat := if wide then 4 else 2

/-- The width of an index into the heap of strings. -/
def strings (s : Schema) : Nat := width s.wideStrings

/-- The width of an index into the heap of GUIDs. -/
def guids (s : Schema) : Nat := width s.wideGuids

/-- The width of an index into the heap of blobs. -/
def blobs (s : Schema) : Nat := width s.wideBlobs

/-- The width of an index into a table. -/
def index (s : Schema) (t : TableId) : Nat := width (s.isWide t)

/-- The width of a coded index. -/
def coded (s : Schema) (k : CodedKind) : Nat := width (s.isWideCoded k)

/-- The size of a row. -/
def rowSize (s : Schema) : TableId → Nat
  | .module => 2 + s.strings + 3 * s.guids
  | .typeRef => s.coded .resolutionScope + 2 * s.strings
  | .typeDef =>
    4 + 2 * s.strings + s.coded .typeDefOrRef + s.index .field + s.index .methodDef
  | .fieldPtr => s.index .field
  | .field => 2 + s.strings + s.blobs
  | .methodPtr => s.index .methodDef
  | .methodDef => 8 + s.strings + s.blobs + s.index .param
  | .paramPtr => s.index .param
  | .param => 4 + s.strings
  | .interfaceImpl => s.index .typeDef + s.coded .typeDefOrRef
  | .memberRef => s.coded .memberRefParent + s.strings + s.blobs
  | .constant => 2 + s.coded .hasConstant + s.blobs
  | .customAttribute => s.coded .hasCustomAttribute + s.coded .customAttributeType + s.blobs
  | .fieldMarshal => s.coded .hasFieldMarshal + s.blobs
  | .declSecurity => 2 + s.coded .hasDeclSecurity + s.blobs
  | .classLayout => 6 + s.index .typeDef
  | .fieldLayout => 4 + s.index .field
  | .standAloneSig => s.blobs
  | .eventMap => s.index .typeDef + s.index .event
  | .eventPtr => s.index .event
  | .event => 2 + s.strings + s.coded .typeDefOrRef
  | .propertyMap => s.index .typeDef + s.index .property
  | .propertyPtr => s.index .property
  | .property => 2 + s.strings + s.blobs
  | .methodSemantics => 2 + s.index .methodDef + s.coded .hasSemantics
  | .methodImpl => s.index .typeDef + 2 * s.coded .methodDefOrRef
  | .moduleRef => s.strings
  | .typeSpec => s.blobs
  | .implMap => 2 + s.coded .memberForwarded + s.strings + s.index .moduleRef
  | .fieldRva => 4 + s.index .field
  | .encLog => 8
  | .encMap => 4
  | .assembly => 16 + s.blobs + 2 * s.strings
  | .assemblyProcessor => 4
  | .assemblyOs => 12
  | .assemblyRef => 12 + 2 * s.blobs + 2 * s.strings
  | .assemblyRefProcessor => 4 + s.index .assemblyRef
  | .assemblyRefOs => 12 + s.index .assemblyRef
  | .file => 4 + s.strings + s.blobs
  | .exportedType => 8 + 2 * s.strings + s.coded .implementation
  | .manifestResource => 8 + s.strings + s.coded .implementation
  | .nestedClass => 2 * s.index .typeDef
  | .genericParam => 4 + s.coded .typeOrMethodDef + s.strings
  | .methodSpec => s.coded .methodDefOrRef + s.blobs
  | .genericParamConstraint => s.index .genericParam + s.coded .typeDefOrRef

theorem width_pos (wide : Bool) : 0 < width wide := by cases wide <;> decide

theorem rowSize_pos (s : Schema) (t : TableId) : 0 < s.rowSize t := by
  have strings := width_pos s.wideStrings
  have blobs := width_pos s.wideBlobs
  cases t <;>
    simp only [rowSize, Schema.strings, Schema.guids, Schema.blobs, index, coded] <;>
    (try have := width_pos (s.isWide .field)) <;>
    (try have := width_pos (s.isWide .methodDef)) <;>
    (try have := width_pos (s.isWide .param)) <;>
    (try have := width_pos (s.isWide .typeDef)) <;>
    (try have := width_pos (s.isWide .event)) <;>
    (try have := width_pos (s.isWide .property)) <;>
    (try have := width_pos (s.isWide .genericParam)) <;>
    omega

end Schema

/-- A decoded coded index: a row of a table, and the token that refers to it. -/
structure CodedIndex where
  table : TableId
  row : UInt32
deriving DecidableEq, Repr

namespace CodedIndex

/-- The token of the row. -/
def token (c : CodedIndex) : Token := c.table.token c.row

/-- Splits a packed reference into its table and row. -/
def decode (kind : CodedKind) (value : UInt32) : Except Error CodedIndex :=
  let tag := value.toNat % kind.tags
  match kind.target? tag with
  | some table => .ok ⟨table, UInt32.ofNat (value.toNat / kind.tags)⟩
  | none => .error (.malformed (.codedTag tag kind value.toNat))

/-- The stored form of a coded index. -/
def encode (s : Schema) (kind : CodedKind) (c : CodedIndex) : List UInt8 :=
  Bytes.leBytes (s.coded kind) (kind.pack (kind.tag c.table) c.row.toNat)

end CodedIndex

end ManagedImage
