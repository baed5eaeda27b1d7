/-
Compressed numbers, the length prefixes of the heaps. A number below `0x80`
takes one byte, one below `0x4000` two and one below `0x20000000` four; the top
bits of the first byte tell which, and the number itself is big-endian. A longer
form than needed is read like any other.
-/
import ManagedImage.Cursor

namespace ManagedImage.Compressed

/-- The least number that has no compressed form. -/
def limit : Nat := 0x20000000

/-- The shortest form of a number below `limit`. -/
def encode (n : Nat) : List UInt8 :=
  if n < 0x80 then [UInt8.ofNat n]
  else if n < 0x4000 then [UInt8.ofNat (0x80 + n / 256), UInt8.ofNat (n % 256)]
  else
    [UInt8.ofNat (0xC0 + n / 0x1000000), UInt8.ofNat (n / 0x10000 % 256),
      UInt8.ofNat (n / 0x100 % 256), UInt8.ofNat (n % 256)]

/-- Reads a number. The first byte is passed over even if it begins no number. -/
def read : Reader Nat := do
  let start ← Reader.position
  let lead ← Reader.u8
  if lead < 0x80 then return lead.toNat
  else if lead < 0xC0 then return Bytes.beNat (lead.toNat - 0x80) #[← Reader.u8]
  else if lead < 0xE0 then return Bytes.beNat (lead.toNat - 0xC0) (← Reader.take 3)
  else Reader.malformed (.compressedLead lead start)

end ManagedImage.Compressed
