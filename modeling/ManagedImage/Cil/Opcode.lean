/-
The opcodes of CIL. An opcode is one byte, or one byte behind the escape byte
`FE`; it fixes the kind of operand that follows, and but for `switch` its size.

The tables list the mnemonics in runs of consecutive opcodes. A byte of no run
is no opcode; the escape byte is of none.
-/

namespace ManagedImage

/-- What follows an opcode. -/
inductive OperandKind where
  | none | int8 | uint8 | uint16 | int32 | int64 | float32 | float64 | token
  | branch8 | branch32
  /-- A count and as many branch distances. -/
  | switch
deriving DecidableEq, Repr

namespace OperandKind

/-- The size of an operand in bytes; that of a `switch` depends on its count. -/
def size? : OperandKind → Option Nat
  | .none => some 0
  | .int8 | .uint8 | .branch8 => some 1
  | .uint16 => some 2
  | .int32 | .float32 | .token | .branch32 => some 4
  | .int64 | .float64 => some 8
  | .switch => Option.none

/-- The name of a kind. -/
def name : OperandKind → String
  | .none => "None"
  | .int8 => "Int8"
  | .uint8 => "UInt8"
  | .uint16 => "UInt16"
  | .int32 => "Int32"
  | .int64 => "Int64"
  | .float32 => "Float32"
  | .float64 => "Float64"
  | .token => "Token"
  | .branch8 => "BranchTarget8"
  | .branch32 => "BranchTarget32"
  | .switch => "Switch"

end OperandKind

/-- An opcode. -/
structure Opcode where
  /-- Whether the opcode stands behind the escape byte. -/
  escaped : Bool
  value : UInt8
  mnemonic : String
  operand : OperandKind
deriving DecidableEq, Repr

namespace Opcode

/-- The byte in front of an escaped opcode. -/
def escape : UInt8 := 0xFE

/-- The count of bytes of the opcode itself. -/
def size (o : Opcode) : Nat := if o.escaped then 2 else 1

/-- The opcode that loads a string. -/
def loadString : UInt8 := 0x72

/-- Mnemonics and operands of consecutive opcodes from a first one on. -/
abbrev Run := Nat × List (String × OperandKind)

/-- The opcodes of one byte. -/
def plainRuns : List Run :=
  [(0x00, [
     ("nop", .none), ("break", .none), ("ldarg.0", .none), ("ldarg.1", .none),
     ("ldarg.2", .none), ("ldarg.3", .none), ("ldloc.0", .none), ("ldloc.1", .none),
     ("ldloc.2", .none), ("ldloc.3", .none), ("stloc.0", .none), ("stloc.1", .none),
     ("stloc.2", .none), ("stloc.3", .none), ("ldarg.s", .uint8), ("ldarga.s", .uint8),
     ("starg.s", .uint8), ("ldloc.s", .uint8), ("ldloca.s", .uint8), ("stloc.s", .uint8),
     ("ldnull", .none), ("ldc.i4.m1", .none), ("ldc.i4.0", .none), ("ldc.i4.1", .none),
     ("ldc.i4.2", .none), ("ldc.i4.3", .none), ("ldc.i4.4", .none), ("ldc.i4.5", .none),
     ("ldc.i4.6", .none), ("ldc.i4.7", .none), ("ldc.i4.8", .none), ("ldc.i4.s", .int8),
     ("ldc.i4", .int32), ("ldc.i8", .int64), ("ldc.r4", .float32), ("ldc.r8", .float64)]),
   (0x25, [
     ("dup", .none), ("pop", .none), ("jmp", .token), ("call", .token), ("calli", .token),
     ("ret", .none), ("br.s", .branch8), ("brfalse.s", .branch8), ("brtrue.s", .branch8),
     ("beq.s", .branch8), ("bge.s", .branch8), ("bgt.s", .branch8), ("ble.s", .branch8),
     ("blt.s", .branch8), ("bne.un.s", .branch8), ("bge.un.s", .branch8),
     ("bgt.un.s", .branch8), ("ble.un.s", .branch8), ("blt.un.s", .branch8), ("br", .branch32),
     ("brfalse", .branch32), ("brtrue", .branch32), ("beq", .branch32), ("bge", .branch32),
     ("bgt", .branch32), ("ble", .branch32), ("blt", .branch32), ("bne.un", .branch32),
     ("bge.un", .branch32), ("bgt.un", .branch32), ("ble.un", .branch32), ("blt.un", .branch32),
     ("switch", .switch), ("ldind.i1", .none), ("ldind.u1", .none), ("ldind.i2", .none),
     ("ldind.u2", .none), ("ldind.i4", .none), ("ldind.u4", .none), ("ldind.i8", .none),
     ("ldind.i", .none), ("ldind.r4", .none), ("ldind.r8", .none), ("ldind.ref", .none),
     ("stind.ref", .none), ("stind.i1", .none), ("stind.i2", .none), ("stind.i4", .none),
     ("stind.i8", .none), ("stind.r4", .none), ("stind.r8", .none), ("add", .none),
     ("sub", .none), ("mul", .none), ("div", .none), ("div.un", .none), ("rem", .none),
     ("rem.un", .none), ("and", .none), ("or", .none), ("xor", .none), ("shl", .none),
     ("shr", .none), ("shr.un", .none), ("neg", .none), ("not", .none), ("conv.i1", .none),
     ("conv.i2", .none), ("conv.i4", .none), ("conv.i8", .none), ("conv.r4", .none),
     ("conv.r8", .none), ("conv.u4", .none), ("conv.u8", .none), ("callvirt", .token),
     ("cpobj", .token), ("ldobj", .token), ("ldstr", .token), ("newobj", .token),
     ("castclass", .token), ("isinst", .token), ("conv.r.un", .none)]),
   (0x79, [
     ("unbox", .token), ("throw", .none), ("ldfld", .token), ("ldflda", .token),
     ("stfld", .token), ("ldsfld", .token), ("ldsflda", .token), ("stsfld", .token),
     ("stobj", .token), ("conv.ovf.i1.un", .none), ("conv.ovf.i2.un", .none),
     ("conv.ovf.i4.un", .none), ("conv.ovf.i8.un", .none), ("conv.ovf.u1.un", .none),
     ("conv.ovf.u2.un", .none), ("conv.ovf.u4.un", .none), ("conv.ovf.u8.un", .none),
     ("conv.ovf.i.un", .none), ("conv.ovf.u.un", .none), ("box", .token), ("newarr", .token),
     ("ldlen", .none), ("ldelema", .token), ("ldelem.i1", .none), ("ldelem.u1", .none),
     ("ldelem.i2", .none), ("ldelem.u2", .none), ("ldelem.i4", .none), ("ldelem.u4", .none),
     ("ldelem.i8", .none), ("ldelem.i", .none), ("ldelem.r4", .none), ("ldelem.r8", .none),
     ("ldelem.ref", .none), ("stelem.i", .none), ("stelem.i1", .none), ("stelem.i2", .none),
     ("stelem.i4", .none), ("stelem.i8", .none), ("stelem.r4", .none), ("stelem.r8", .none),
     ("stelem.ref", .none), ("ldelem", .token), ("stelem", .token), ("unbox.any", .token)]),
   (0xB3, [
     ("conv.ovf.i1", .none), ("conv.ovf.u1", .none), ("conv.ovf.i2", .none),
     ("conv.ovf.u2", .none), ("conv.ovf.i4", .none), ("conv.ovf.u4", .none),
     ("conv.ovf.i8", .none), ("conv.ovf.u8", .none)]),
   (0xC2, [("refanyval", .token), ("ckfinite", .none)]),
   (0xC6, [("mkrefany", .token)]),
   (0xD0, [
     ("ldtoken", .token), ("conv.u2", .none), ("conv.u1", .none), ("conv.i", .none),
     ("conv.ovf.i", .none), ("conv.ovf.u", .none), ("add.ovf", .none), ("add.ovf.un", .none),
     ("mul.ovf", .none), ("mul.ovf.un", .none), ("sub.ovf", .none), ("sub.ovf.un", .none),
     ("endfinally", .none), ("leave", .branch32), ("leave.s", .branch8), ("stind.i", .none),
     ("conv.u", .none)])]

/-- The opcodes behind the escape byte. -/
def escapedRuns : List Run :=
  [(0x00, [
     ("arglist", .none), ("ceq", .none), ("cgt", .none), ("cgt.un", .none), ("clt", .none),
     ("clt.un", .none), ("ldftn", .token), ("ldvirtftn", .token)]),
   (0x09, [
     ("ldarg", .uint16), ("ldarga", .uint16), ("starg", .uint16), ("ldloc", .uint16),
     ("ldloca", .uint16), ("stloc", .uint16), ("localloc", .none)]),
   (0x11, [
     ("endfilter", .none), ("unaligned.", .uint8), ("volatile.", .none), ("tail.", .none),
     ("initobj", .token), ("constrained.", .token), ("cpblk", .none), ("initblk", .none),
     ("no.", .uint8), ("rethrow", .none)]),
   (0x1C, [("sizeof", .token), ("refanytype", .none), ("readonly.", .none)])]

/-- The mnemonic and operand that a list of runs gives a byte. -/
def find? (value : Nat) : List Run → Option (String × OperandKind)
  | [] => none
  | (first, run) :: later =>
    if first ≤ value ∧ value < first + run.length then run[value - first]? else find? value later

/-- The opcodes of a list of runs, by byte. -/
def tableOf (escaped : Bool) (runs : List Run) : Array (Option Opcode) :=
  Array.ofFn fun value : Fin 256 =>
    (find? value.val runs).map fun (mnemonic, operand) =>
      ⟨escaped, UInt8.ofNat value.val, mnemonic, operand⟩

/-- The opcodes of one byte, by byte. -/
def plainTable : Array (Option Opcode) := tableOf false plainRuns

/-- The opcodes behind the escape byte, by byte. -/
def escapedTable : Array (Option Opcode) := tableOf true escapedRuns

/-- The opcode of one byte. -/
def plain? (value : UInt8) : Option Opcode := plainTable[value.toNat]?.join

/-- The opcode of a byte behind the escape byte. -/
def escaped? (value : UInt8) : Option Opcode := escapedTable[value.toNat]?.join

end Opcode

end ManagedImage
