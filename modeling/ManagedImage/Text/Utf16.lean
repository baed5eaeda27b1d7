/-
Text held as UTF-16 code units. Decoding never fails: a surrogate without its
partner reads as the replacement character. Encoding writes one unit for a
character below `10000` and a surrogate pair for any other.

Main statements: a text that was encoded is decoded to itself (`decode_encode`),
and units that were written are read back (`unitsOfBytes_bytesOfUnits`).
-/
import ManagedImage.Bytes

namespace ManagedImage.Utf16

/-- The first unit of a surrogate pair. -/
def isHigh (unit : UInt16) : Bool := 0xD800 ≤ unit && unit < 0xDC00

/-- The second unit of a surrogate pair. -/
def isLow (unit : UInt16) : Bool := 0xDC00 ≤ unit && unit < 0xE000

/-- What a surrogate without its partner reads as. -/
def replacement : Char := '\uFFFD'

/-- The character of a surrogate pair. -/
def pair (high low : UInt16) : Char :=
  Char.ofNat (0x10000 + (high.toNat - 0xD800) * 0x400 + (low.toNat - 0xDC00))

/-- The characters of a list of units. -/
def decode : List UInt16 → List Char
  | [] => []
  | [unit] => [if isHigh unit || isLow unit then replacement else Char.ofNat unit.toNat]
  | unit :: next :: rest =>
    if isHigh unit then
      if isLow next then pair unit next :: decode rest
      else replacement :: decode (next :: rest)
    else (if isLow unit then replacement else Char.ofNat unit.toNat) :: decode (next :: rest)

/-- The units of one character. -/
def unitsOf (c : Char) : List UInt16 :=
  if c.toNat < 0x10000 then [UInt16.ofNat c.toNat]
  else
    [UInt16.ofNat (0xD800 + (c.toNat - 0x10000) / 0x400),
      UInt16.ofNat (0xDC00 + (c.toNat - 0x10000) % 0x400)]

/-- The units of a text. -/
def encode (text : List Char) : List UInt16 := text.flatMap unitsOf

/-- The units written little-endian in `data`; a last odd byte is dropped. -/
def unitsOfBytes : List UInt8 → List UInt16
  | low :: high :: rest => UInt16.ofNat (low.toNat + 256 * high.toNat) :: unitsOfBytes rest
  | _ => []

/-- The little-endian bytes of a list of units. -/
def bytesOfUnits (units : List UInt16) : List UInt8 :=
  units.flatMap fun unit => Bytes.leBytes 2 unit.toNat

theorem isHigh_iff {unit : UInt16} :
    isHigh unit = true ↔ 0xD800 ≤ unit.toNat ∧ unit.toNat < 0xDC00 := by
  simp [isHigh, UInt16.le_iff_toNat_le, UInt16.lt_iff_toNat_lt]

theorem isLow_iff {unit : UInt16} :
    isLow unit = true ↔ 0xDC00 ≤ unit.toNat ∧ unit.toNat < 0xE000 := by
  simp [isLow, UInt16.le_iff_toNat_le, UInt16.lt_iff_toNat_lt]

theorem decode_of_single {unit : UInt16} (apart : unit.toNat < 0xD800 ∨ 0xE000 ≤ unit.toNat)
    (rest : List UInt16) : decode (unit :: rest) = Char.ofNat unit.toNat :: decode rest := by
  have notHigh : isHigh unit = false := by
    rw [Bool.eq_false_iff, ne_eq, isHigh_iff]; omega
  have notLow : isLow unit = false := by
    rw [Bool.eq_false_iff, ne_eq, isLow_iff]; omega
  cases rest <;> simp [decode, notHigh, notLow]

theorem decode_of_pair {high low : UInt16} (isHigh : isHigh high = true) (isLow : isLow low = true)
    (rest : List UInt16) : decode (high :: low :: rest) = pair high low :: decode rest := by
  simp [decode, isHigh, isLow]

/-- The units of a character, and anything behind them, are read as the character. -/
theorem decode_unitsOf (c : Char) (rest : List UInt16) :
    decode (unitsOf c ++ rest) = c :: decode rest := by
  have valid : c.toNat < 0xD800 ∨ 0xDFFF < c.toNat ∧ c.toNat < 0x110000 := c.valid
  unfold unitsOf
  split
  · next small =>
    have unit : (UInt16.ofNat c.toNat).toNat = c.toNat := by
      rw [UInt16.toNat_ofNat']; omega
    rw [List.singleton_append, decode_of_single (by omega), unit, Char.ofNat_toNat]
  · next large =>
    have high : (UInt16.ofNat (0xD800 + (c.toNat - 0x10000) / 0x400)).toNat =
        0xD800 + (c.toNat - 0x10000) / 0x400 := by
      rw [UInt16.toNat_ofNat']; omega
    have low : (UInt16.ofNat (0xDC00 + (c.toNat - 0x10000) % 0x400)).toNat =
        0xDC00 + (c.toNat - 0x10000) % 0x400 := by
      rw [UInt16.toNat_ofNat']; omega
    have number : 0x10000 + (0xD800 + (c.toNat - 0x10000) / 0x400 - 0xD800) * 0x400 +
        (0xDC00 + (c.toNat - 0x10000) % 0x400 - 0xDC00) = c.toNat := by omega
    rw [List.cons_append, List.singleton_append, decode_of_pair, pair, high, low, number,
      Char.ofNat_toNat]
    · rw [isHigh_iff, high]; omega
    · rw [isLow_iff, low]; omega

/-- A text that was encoded is decoded to itself. -/
theorem decode_encode (text : List Char) : decode (encode text) = text := by
  induction text with
  | nil => rfl
  | cons c text ih =>
    show decode (unitsOf c ++ encode text) = c :: text
    rw [decode_unitsOf, ih]

example : decode [0x48, 0xD83D, 0xDE00, 0xD800] = ['H', '😀', '\uFFFD'] := by decide
example : encode ['H', '😀'] = [0x48, 0xD83D, 0xDE00] := by decide

theorem unitsOfBytes_bytesOfUnits (units : List UInt16) : unitsOfBytes (bytesOfUnits units) = units := by
  induction units with
  | nil => rfl
  | cons unit units ih =>
    have bound : unit.toNat < 65536 := unit.toNat_lt
    have number : unit.toNat % 256 % 256 + 256 * (unit.toNat / 256 % 256 % 256) = unit.toNat := by omega
    show unitsOfBytes (UInt8.ofNat (unit.toNat % 256) :: UInt8.ofNat (unit.toNat / 256 % 256) ::
      bytesOfUnits units) = unit :: units
    rw [unitsOfBytes, UInt8.toNat_ofNat', UInt8.toNat_ofNat', number, UInt16.ofNat_toNat, ih]

@[simp] theorem length_bytesOfUnits (units : List UInt16) :
    (bytesOfUnits units).length = 2 * units.length := by
  simp [bytesOfUnits, List.map_const', Nat.mul_comm]

end ManagedImage.Utf16
