/-
The metadata tables. A table is known by its number, which is its bit in the
mask of present tables and the selector of tokens that refer to its rows; the
tables stand in the stream in the order of their numbers.

Main statement: the numbers run from 0 to 44, one table each (`ofNat?_toNat`).
-/
import ManagedImage.Token

namespace ManagedImage

/-- A metadata table, in the order of the numbers. -/
inductive TableId where
  | module | typeRef | typeDef | fieldPtr | field | methodPtr
  | methodDef | paramPtr | param | interfaceImpl | memberRef | constant
  | customAttribute | fieldMarshal | declSecurity | classLayout | fieldLayout | standAloneSig
  | eventMap | eventPtr | event | propertyMap | propertyPtr | property
  | methodSemantics | methodImpl | moduleRef | typeSpec | implMap | fieldRva
  | encLog | encMap | assembly | assemblyProcessor | assemblyOs | assemblyRef
  | assemblyRefProcessor | assemblyRefOs | file | exportedType | manifestResource | nestedClass
  | genericParam | methodSpec | genericParamConstraint
deriving DecidableEq, Repr

namespace TableId

/-- Every table, in order. -/
def all : List TableId :=
  [.module, .typeRef, .typeDef, .fieldPtr, .field, .methodPtr,
   .methodDef, .paramPtr, .param, .interfaceImpl, .memberRef, .constant,
   .customAttribute, .fieldMarshal, .declSecurity, .classLayout, .fieldLayout, .standAloneSig,
   .eventMap, .eventPtr, .event, .propertyMap, .propertyPtr, .property,
   .methodSemantics, .methodImpl, .moduleRef, .typeSpec, .implMap, .fieldRva,
   .encLog, .encMap, .assembly, .assemblyProcessor, .assemblyOs, .assemblyRef,
   .assemblyRefProcessor, .assemblyRefOs, .file, .exportedType, .manifestResource, .nestedClass,
   .genericParam, .methodSpec, .genericParamConstraint]

/-- The number of a table. -/
def toNat (t : TableId) : Nat := t.ctorIdx

/-- The table with a given number. -/
def ofNat? (n : Nat) : Option TableId := all[n]?

/-- The selector of the tokens of a table's rows. -/
def selector (t : TableId) : UInt8 := UInt8.ofNat t.toNat

/-- The token bits of a table: its selector in the top byte. -/
def tokenBits (t : TableId) : UInt32 := t.selector.toUInt32 <<< 24

/-- The token of a row. A row number of more than 24 bits is not cut off. -/
def token (t : TableId) (row : UInt32) : Token := ⟨t.tokenBits ||| row⟩

/-- The name of a table. -/
def name : TableId → String
  | .module => "Module"
  | .typeRef => "TypeRef"
  | .typeDef => "TypeDef"
  | .fieldPtr => "FieldPtr"
  | .field => "Field"
  | .methodPtr => "MethodPtr"
  | .methodDef => "MethodDef"
  | .paramPtr => "ParamPtr"
  | .param => "Param"
  | .interfaceImpl => "InterfaceImpl"
  | .memberRef => "MemberRef"
  | .constant => "Constant"
  | .customAttribute => "CustomAttribute"
  | .fieldMarshal => "FieldMarshal"
  | .declSecurity => "DeclSecurity"
  | .classLayout => "ClassLayout"
  | .fieldLayout => "FieldLayout"
  | .standAloneSig => "StandAloneSig"
  | .eventMap => "EventMap"
  | .eventPtr => "EventPtr"
  | .event => "Event"
  | .propertyMap => "PropertyMap"
  | .propertyPtr => "PropertyPtr"
  | .property => "Property"
  | .methodSemantics => "MethodSemantics"
  | .methodImpl => "MethodImpl"
  | .moduleRef => "ModuleRef"
  | .typeSpec => "TypeSpec"
  | .implMap => "ImplMap"
  | .fieldRva => "FieldRVA"
  | .encLog => "EncLog"
  | .encMap => "EncMap"
  | .assembly => "Assembly"
  | .assemblyProcessor => "AssemblyProcessor"
  | .assemblyOs => "AssemblyOS"
  | .assemblyRef => "AssemblyRef"
  | .assemblyRefProcessor => "AssemblyRefProcessor"
  | .assemblyRefOs => "AssemblyRefOS"
  | .file => "File"
  | .exportedType => "ExportedType"
  | .manifestResource => "ManifestResource"
  | .nestedClass => "NestedClass"
  | .genericParam => "GenericParam"
  | .methodSpec => "MethodSpec"
  | .genericParamConstraint => "GenericParamConstraint"

theorem ofNat?_toNat (t : TableId) : ofNat? t.toNat = some t := by cases t <;> rfl

theorem toNat_lt (t : TableId) : t.toNat < 45 := by cases t <;> decide

theorem map_toNat_all : all.map toNat = List.range 45 := by decide

end TableId

end ManagedImage
