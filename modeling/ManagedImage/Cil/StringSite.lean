/-
String loads in code. All code is decoded, for a byte that looks like the opcode
may lie within the operand of another instruction; operands other than the
tokens of string loads are passed over without being read.
-/
import ManagedImage.Cil.Instruction

namespace ManagedImage

/-- A string load in code. -/
structure StringSite where
  /-- The position of the opcode in the code. -/
  offset : Nat
  token : Token
deriving DecidableEq, Repr

namespace StringSite

/-- Passes over the operand of a kind. -/
def skipOperand (kind : OperandKind) : Reader Unit :=
  match kind.size? with
  | some size => Reader.advance size
  | none => do
    let count ← Reader.nat 4
    Reader.advance (count * 4)

/--
Passes over an instruction, and answers the site if it is a string load. What is
no opcode is left to the full reading of an instruction, which tells why.
-/
def next : Reader (Option StringSite) := do
  let offset ← Reader.position
  let first ← Reader.u8
  if first = Opcode.loadString then
    return some ⟨offset, ⟨← Reader.u32⟩⟩
  let opcode? ← if first = Opcode.escape then Opcode.escaped? <$> Reader.u8
    else pure (Opcode.plain? first)
  match opcode? with
  | some opcode => skipOperand opcode.operand
  | none =>
    Reader.seek offset
    discard Instruction.read
  return none

/-- The string loads of code, in order. -/
def findAll (code : Bytes) : Except Error (List StringSite) := do
  return (← (Reader.untilEnd next).run code).filterMap id

end StringSite

end ManagedImage
