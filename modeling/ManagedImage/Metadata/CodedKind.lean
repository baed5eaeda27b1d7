/-
The kinds of coded index. A coded index refers to a row of one of several
tables: its low bits are a tag that selects the table, the others are the row.
The tag has as many bits as the largest tag of the kind needs; some tags are
reserved and select nothing.

Main statement: every target has a tag that fits in the tag bits
(`targets_length_le`).
-/
import ManagedImage.Metadata.TableId

namespace ManagedImage

/-- A kind of coded index. -/
inductive CodedKind where
  | typeDefOrRef | hasConstant | hasCustomAttribute | hasFieldMarshal | hasDeclSecurity
  | memberRefParent | hasSemantics | methodDefOrRef | memberForwarded | implementation
  | customAttributeType | resolutionScope | typeOrMethodDef
deriving DecidableEq, Repr

namespace CodedKind

/-- Every kind, in order. -/
def all : List CodedKind :=
  [.typeDefOrRef, .hasConstant, .hasCustomAttribute, .hasFieldMarshal, .hasDeclSecurity,
   .memberRefParent, .hasSemantics, .methodDefOrRef, .memberForwarded, .implementation,
   .customAttributeType, .resolutionScope, .typeOrMethodDef]

/-- The name of a kind. -/
def name : CodedKind → String
  | .typeDefOrRef => "TypeDefOrRef"
  | .hasConstant => "HasConstant"
  | .hasCustomAttribute => "HasCustomAttribute"
  | .hasFieldMarshal => "HasFieldMarshal"
  | .hasDeclSecurity => "HasDeclSecurity"
  | .memberRefParent => "MemberRefParent"
  | .hasSemantics => "HasSemantics"
  | .methodDefOrRef => "MethodDefOrRef"
  | .memberForwarded => "MemberForwarded"
  | .implementation => "Implementation"
  | .customAttributeType => "CustomAttributeType"
  | .resolutionScope => "ResolutionScope"
  | .typeOrMethodDef => "TypeOrMethodDef"

/-- The tables of a kind in the order of their tags; a reserved tag has none. -/
def targets : CodedKind → List (Option TableId)
  | .typeDefOrRef =>
    [some .typeDef, some .typeRef, some .typeSpec]
  | .hasConstant =>
    [some .field, some .param, some .property]
  | .hasCustomAttribute =>
    [some .methodDef, some .field, some .typeRef, some .typeDef, some .param,
      some .interfaceImpl, some .memberRef, some .module, some .declSecurity, some .property,
      some .event, some .standAloneSig, some .moduleRef, some .typeSpec, some .assembly,
      some .assemblyRef, some .file, some .exportedType, some .manifestResource,
      some .genericParam, some .genericParamConstraint, some .methodSpec]
  | .hasFieldMarshal =>
    [some .field, some .param]
  | .hasDeclSecurity =>
    [some .typeDef, some .methodDef, some .assembly]
  | .memberRefParent =>
    [some .typeDef, some .typeRef, some .moduleRef, some .methodDef, some .typeSpec]
  | .hasSemantics =>
    [some .event, some .property]
  | .methodDefOrRef =>
    [some .methodDef, some .memberRef]
  | .memberForwarded =>
    [some .field, some .methodDef]
  | .implementation =>
    [some .file, some .assemblyRef, some .exportedType]
  | .customAttributeType =>
    [none, none, some .methodDef, some .memberRef, none]
  | .resolutionScope =>
    [some .module, some .moduleRef, some .assemblyRef, some .typeRef]
  | .typeOrMethodDef =>
    [some .typeDef, some .methodDef]

/-- The count of tag bits: as many as the largest tag has. -/
def tagBits (k : CodedKind) : Nat := (k.targets.length - 1).log2 + 1

/-- How many tags the tag bits can hold, reserved ones included. -/
def tags (k : CodedKind) : Nat := 1 <<< k.tagBits

/-- The table that a tag selects. -/
def target? (k : CodedKind) (tag : Nat) : Option TableId := k.targets[tag]?.join

/-- The tables that a kind can refer to. -/
def candidates (k : CodedKind) : List TableId := k.targets.filterMap id

/-- The tag that selects a table, past the last tag if none does. -/
def tag (k : CodedKind) (t : TableId) : Nat := k.targets.idxOf (some t)

/-- The packed form of a reference: the row above the tag. -/
def pack (k : CodedKind) (tag row : Nat) : Nat := row * k.tags + tag

theorem targets_length_le (k : CodedKind) : k.targets.length ≤ k.tags := by
  cases k <;> decide

theorem tagBits_le (k : CodedKind) : k.tagBits ≤ 5 := by cases k <;> decide

example : all.map tagBits = [2, 2, 5, 1, 2, 3, 1, 1, 1, 2, 3, 2, 1] := by decide

end CodedKind

end ManagedImage
