/-
Rows of the tables that are decoded: modules, type references, type
definitions, method definitions and parameters. The columns of a row are kept
as they are stored; those that are heap indexes are looked up on request.

A row knows its number, which counts from one, and where it begins in the bytes
it was read from. The columns are read and written at the widths of a schema.
-/
import ManagedImage.Cursor
import ManagedImage.Flag
import ManagedImage.Heap.Blobs
import ManagedImage.Heap.Guids
import ManagedImage.Heap.Strings
import ManagedImage.Metadata.Schema

namespace ManagedImage

/-- A row of a table with columns of type `γ`. -/
structure Row (γ : Type) where
  /-- The number of the row, from one. -/
  rid : Nat
  offset : Nat
  columns : γ
deriving DecidableEq, Repr

/-- The columns of a table that is decoded. -/
class Columns (γ : Type) where
  /-- The table. -/
  table : TableId
  /-- Reads the columns of a row. -/
  read : Schema → Reader γ
  /-- The stored form of the columns of a row. -/
  encode : Schema → γ → List UInt8

/-- The token that refers to a row. -/
def Row.token {γ : Type} [Columns γ] (r : Row γ) : Token :=
  (Columns.table γ).token (UInt32.ofNat r.rid)

/-- Reads row number `rid`. -/
def Row.read {γ : Type} [Columns γ] (s : Schema) (rid : Nat) : Reader (Row γ) := do
  let offset ← Reader.position
  return ⟨rid, offset, ← Columns.read s⟩

/-- Reads a coded index. The cursor passes over it even if its tag selects no table. -/
def CodedIndex.read (s : Schema) (kind : CodedKind) : Reader CodedIndex := do
  let value ← Reader.index (s.isWideCoded kind)
  Reader.ofExcept (CodedIndex.decode kind value)

/-- A module. -/
structure ModuleColumns where
  generation : UInt16
  name : UInt32
  versionId : UInt32
  editId : UInt32
  editBaseId : UInt32
deriving DecidableEq, Repr

instance : Columns ModuleColumns where
  table := .module
  read s := do
    let generation ← Reader.u16
    let name ← Reader.index s.wideStrings
    let versionId ← Reader.index s.wideGuids
    let editId ← Reader.index s.wideGuids
    let editBaseId ← Reader.index s.wideGuids
    return { generation, name, versionId, editId, editBaseId }
  encode s c :=
    Bytes.leBytes 2 c.generation.toNat ++ Bytes.leBytes s.strings c.name.toNat ++
      Bytes.leBytes s.guids c.versionId.toNat ++ Bytes.leBytes s.guids c.editId.toNat ++
      Bytes.leBytes s.guids c.editBaseId.toNat

/-- The name of a type behind its namespace, if it has one. -/
def qualifiedName (strings : StringHeap) (name space : UInt32) : Except Error String := do
  let name ← strings.get name.toNat
  let space ← strings.get space.toNat
  return if space.isEmpty then name else s!"{space}.{name}"

/-- A reference to a type of another module. -/
structure TypeRefColumns where
  scope : CodedIndex
  name : UInt32
  space : UInt32
deriving DecidableEq, Repr

instance : Columns TypeRefColumns where
  table := .typeRef
  read s := do
    let scope ← CodedIndex.read s .resolutionScope
    let name ← Reader.index s.wideStrings
    let space ← Reader.index s.wideStrings
    return { scope, name, space }
  encode s c :=
    c.scope.encode s .resolutionScope ++ Bytes.leBytes s.strings c.name.toNat ++
      Bytes.leBytes s.strings c.space.toNat

/-- A type of the module. Its fields and methods are runs of rows that begin at its lists. -/
structure TypeDefColumns where
  flags : UInt32
  name : UInt32
  space : UInt32
  base : CodedIndex
  fieldList : UInt32
  methodList : UInt32
deriving DecidableEq, Repr

instance : Columns TypeDefColumns where
  table := .typeDef
  read s := do
    let flags ← Reader.u32
    let name ← Reader.index s.wideStrings
    let space ← Reader.index s.wideStrings
    let base ← CodedIndex.read s .typeDefOrRef
    let fieldList ← Reader.index (s.isWide .field)
    let methodList ← Reader.index (s.isWide .methodDef)
    return { flags, name, space, base, fieldList, methodList }
  encode s c :=
    Bytes.leBytes 4 c.flags.toNat ++ Bytes.leBytes s.strings c.name.toNat ++
      Bytes.leBytes s.strings c.space.toNat ++ c.base.encode s .typeDefOrRef ++
      Bytes.leBytes (s.index .field) c.fieldList.toNat ++
      Bytes.leBytes (s.index .methodDef) c.methodList.toNat

/-- A method of the module. -/
structure MethodDefColumns where
  /-- The address of the body, zero for a method without one. -/
  rva : UInt32
  implFlags : UInt16
  flags : UInt16
  name : UInt32
  signature : UInt32
  paramList : UInt32
deriving DecidableEq, Repr

instance : Columns MethodDefColumns where
  table := .methodDef
  read s := do
    let rva ← Reader.u32
    let implFlags ← Reader.u16
    let flags ← Reader.u16
    let name ← Reader.index s.wideStrings
    let signature ← Reader.index s.wideBlobs
    let paramList ← Reader.index (s.isWide .param)
    return { rva, implFlags, flags, name, signature, paramList }
  encode s c :=
    Bytes.leBytes 4 c.rva.toNat ++ Bytes.leBytes 2 c.implFlags.toNat ++
      Bytes.leBytes 2 c.flags.toNat ++ Bytes.leBytes s.strings c.name.toNat ++
      Bytes.leBytes s.blobs c.signature.toNat ++ Bytes.leBytes (s.index .param) c.paramList.toNat

/-- A parameter of a method. -/
structure ParamColumns where
  flags : UInt16
  sequence : UInt16
  name : UInt32
deriving DecidableEq, Repr

instance : Columns ParamColumns where
  table := .param
  read s := do
    let flags ← Reader.u16
    let sequence ← Reader.u16
    let name ← Reader.index s.wideStrings
    return { flags, sequence, name }
  encode s c :=
    Bytes.leBytes 2 c.flags.toNat ++ Bytes.leBytes 2 c.sequence.toNat ++
      Bytes.leBytes s.strings c.name.toNat

/-- What the code of a method is. -/
inductive CodeKind where
  | il | native | optil | runtime
deriving DecidableEq, Repr

namespace CodeKind

/-- The kind in the low two bits of the implementation flags. -/
def ofBits (implFlags : UInt16) : CodeKind :=
  match implFlags.toNat % 4 with
  | 0 => .il
  | 1 => .native
  | 2 => .optil
  | _ => .runtime

/-- The two bits of a kind. -/
def bits : CodeKind → Nat
  | .il => 0
  | .native => 1
  | .optil => 2
  | .runtime => 3

/-- The bits of a kind by name: running code at all is both native and optimised. -/
def describe (k : CodeKind) : String :=
  let named := Flag.describe [⟨"IL", 0⟩, ⟨"NATIVE", 1⟩, ⟨"OPTIL", 2⟩, ⟨"RUNTIME", 3⟩] k.bits
  s!"MethodImplCodeType({named})"

end CodeKind

namespace MethodDefColumns

/-- The kind of the method's code. -/
def codeKind (m : MethodDefColumns) : CodeKind := .ofBits m.implFlags

/-- Whether the method has a body of CIL instructions. -/
def hasBody (m : MethodDefColumns) : Bool := m.rva ≠ 0 && m.codeKind = .il

/-- The implementation flags without the kind of code. -/
def implAttributes (m : MethodDefColumns) : Nat := m.implFlags.toNat / 4 * 4

/-- The named bits of the implementation flags. -/
def implFlagNames : List Flag :=
  [⟨"UNMANAGED", 0x0004⟩, ⟨"NO_INLINING", 0x0008⟩, ⟨"FORWARD_REF", 0x0010⟩,
   ⟨"SYNCHRONIZED", 0x0020⟩, ⟨"NO_OPTIMIZATION", 0x0040⟩, ⟨"PRESERVE_SIG", 0x0080⟩,
   ⟨"AGGRESSIVE_INLINING", 0x0100⟩, ⟨"INTERNAL_CALL", 0x1000⟩]

/-- The named bits of the flags. -/
def flagNames : List Flag :=
  [⟨"STATIC", 0x0010⟩, ⟨"FINAL", 0x0020⟩, ⟨"VIRTUAL", 0x0040⟩, ⟨"HIDE_BY_SIG", 0x0080⟩,
   ⟨"ABSTRACT", 0x0400⟩, ⟨"SPECIAL_NAME", 0x0800⟩, ⟨"PINVOKE_IMPL", 0x2000⟩,
   ⟨"RT_SPECIAL_NAME", 0x1000⟩]

end MethodDefColumns

end ManagedImage
