/-
Instructions of CIL and their reading. Code is a sequence of instructions
without gaps; an instruction is an opcode and its operand, whose kind the opcode
fixes. Distances of branches count from the end of the instruction.
-/
import ManagedImage.Cil.Opcode
import ManagedImage.Cursor
import ManagedImage.Number.Shortest

namespace ManagedImage

/-- The operand of an instruction. -/
inductive Operand where
  | none
  /-- An integer, or the number of an argument or a local. -/
  | immediate (value : Int)
  | float (value : Binary64)
  | token (token : Token)
  /-- The distance of a branch. -/
  | target (distance : Int)
  /-- The distances of a `switch`. -/
  | switch (distances : List Int)
deriving DecidableEq, Repr

/-- An instruction where it stands in the code. -/
structure Instruction where
  offset : Nat
  /-- The count of bytes with the operand. -/
  size : Nat
  opcode : Opcode
  operand : Operand
deriving DecidableEq, Repr

namespace Operand

/-- Reads the operand of a kind. All distances of a `switch` must be there before the first is read. -/
def read : OperandKind → Reader Operand
  | .none => pure .none
  | .int8 => .immediate <$> Reader.int 1
  | .uint8 => (.immediate ·.toNat) <$> Reader.u8
  | .uint16 => (.immediate ·.toNat) <$> Reader.u16
  | .int32 => .immediate <$> Reader.int 4
  | .int64 => .immediate <$> Reader.int 8
  | .float32 => (.float <| .ofSingle ·) <$> Reader.u32
  | .float64 => (.float ⟨·⟩) <$> Reader.u64
  | .token => (.token ⟨·⟩) <$> Reader.u32
  | .branch8 => .target <$> Reader.int 1
  | .branch32 => .target <$> Reader.int 4
  | .switch => do
    let count ← Reader.nat 4
    Reader.ensure (count * 4)
    .switch <$> Reader.times (Reader.int 4) count

end Operand

/-- Reads an opcode. An undefined one is reported at the position of its first byte. -/
def Opcode.read : Reader Opcode := do
  let offset ← Reader.position
  let first ← Reader.u8
  if first = escape then
    let second ← Reader.u8
    match escaped? second with
    | some opcode => return opcode
    | none => Reader.malformed (.escapedOpcode second offset)
  else
    match plain? first with
    | some opcode => return opcode
    | none => Reader.malformed (.opcode first offset)

namespace Instruction

/-- Reads an instruction. -/
def read : Reader Instruction := do
  let offset ← Reader.position
  let opcode ← Opcode.read
  let operand ← Operand.read opcode.operand
  return { offset, size := (← Reader.position) - offset, opcode, operand }

/-- Reads instructions up to the end of the code. -/
def readAll : Reader (List Instruction) := Reader.untilEnd read

/-- The position behind the instruction. -/
def stop (i : Instruction) : Nat := i.offset + i.size

/-- The token of the instruction, if it has one. -/
def token? (i : Instruction) : Option Token :=
  match i.operand with
  | .token token => some token
  | _ => none

/-- A position in code; one before its start shows as a 64-bit number in two's complement. -/
def label (position : Int) : String := "IL_" ++ Hex.padded 4 (position % 0x10000000000000000).toNat

/-- The instruction as text: its position, its mnemonic and its operand. -/
def text (i : Instruction) : String :=
  label i.offset ++ ": " ++ i.opcode.mnemonic ++
    match i.operand with
    | .none => ""
    | .immediate value => s!" {value}"
    | .float value => " " ++ value.text
    | .token token => " " ++ token.text
    | .target distance => " " ++ label (i.stop + distance)
    | .switch distances => s!" ({distances.length} targets)"

end Instruction

end ManagedImage
