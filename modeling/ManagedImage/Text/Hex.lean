/-
Hexadecimal texts: a number with or without the mark `0x`, padded with zeros on
the left to a least count of digits, and the text of a byte vector, two digits
a byte (`length_ofBytes`).
-/
import ManagedImage.Bytes

namespace ManagedImage.Hex

/-- The lowercase digits of `n`, at least `width` of them. -/
def padded (width n : Nat) : String :=
  String.ofList (List.leftpad width '0' (Nat.toDigits 16 n))

/-- The digits of `n` behind the mark `0x`, at least `width` of them. -/
def marked (width n : Nat) : String := "0x" ++ padded width n

/-- The uppercase digits of `n`, at least `width` of them. -/
def upper (width n : Nat) : String :=
  String.ofList ((List.leftpad width '0' (Nat.toDigits 16 n)).map Char.toUpper)

/-- Two lowercase digits for each byte, in order. -/
def ofBytes (data : Bytes) : String :=
  String.ofList (data.toList.flatMap fun byte => List.leftpad 2 '0' (Nat.toDigits 16 byte.toNat))

/-- A number that fits has the wanted count of digits. -/
theorem length_padded {width n : Nat} (some : 0 < width) (fits : n < Nat.pow 16 width) :
    (padded width n).length = width := by
  have digits : (Nat.toDigits 16 n).length ≤ width :=
    (Nat.length_toDigits_le_iff (by decide) some).2 fits
  rw [padded, String.length_ofList, List.length_leftpad]
  omega

theorem length_ofBytes (data : Bytes) : (ofBytes data).length = 2 * data.size := by
  have two (byte : UInt8) : (List.leftpad 2 '0' (Nat.toDigits 16 byte.toNat)).length = 2 := by
    have width := @length_padded 2 byte.toNat (by decide) byte.toNat_lt
    rwa [padded, String.length_ofList] at width
  rw [ofBytes, String.length_ofList, List.length_flatMap]
  simp only [two, List.map_const', List.sum_replicate_nat, Array.length_toList, Nat.mul_comm]

example : ofBytes #[0x00, 0x7F] = "007f" := by decide +kernel

end ManagedImage.Hex
