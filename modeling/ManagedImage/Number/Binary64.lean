/-
Double-precision numbers as their 64 bits. A finite number is a sign, a
significand `m` and an exponent `q`, and stands for `m * 2 ^ q`; a single
widens to the double of the same value (`ofSingle`).

Main statements: the fields of a double give its value (`value_ofFields`), and a
single keeps its value (`value_ofSingle`).
-/

namespace ManagedImage

/-- A double-precision number, held as its bits. -/
structure Binary64 where
  bits : UInt64
deriving DecidableEq, Repr

namespace Binary64

/-- What the bits of a double stand for. -/
inductive Value where
  | nan
  | infinite (negative : Bool)
  /-- The number `m * 2 ^ q`, or its negative. -/
  | finite (negative : Bool) (m : Nat) (q : Int)
deriving DecidableEq, Repr

/-- The double with the given sign, exponent field and fraction field. -/
def ofFields (negative : Bool) (exponent fraction : Nat) : Binary64 :=
  ⟨UInt64.ofNat ((if negative then 0x8000000000000000 else 0) + exponent * 0x10000000000000 + fraction)⟩

/-- The value of a double: a zero exponent field has no hidden bit. -/
def value (x : Binary64) : Value :=
  let negative := x.bits.toNat ≥ 0x8000000000000000
  let exponent : Nat := x.bits.toNat / 0x10000000000000 % 0x800
  let fraction : Nat := x.bits.toNat % 0x10000000000000
  if exponent = 0x7FF then
    if fraction = 0 then .infinite negative else .nan
  else if exponent = 0 then .finite negative fraction (-1074)
  else .finite negative (0x10000000000000 + fraction) ((exponent : Int) - 1075)

/-- The double of the same value as a single. A single without a hidden bit gains one. -/
def ofSingle (bits : UInt32) : Binary64 :=
  let negative := bits.toNat ≥ 0x80000000
  let exponent : Nat := bits.toNat / 0x800000 % 0x100
  let fraction : Nat := bits.toNat % 0x800000
  if exponent = 0xFF then ofFields negative 0x7FF (fraction * 0x20000000)
  else if exponent ≠ 0 then ofFields negative (exponent + 896) (fraction * 0x20000000)
  else if fraction = 0 then ofFields negative 0 0
  else
    let top : Nat := fraction.log2
    ofFields negative (top + 874) ((fraction - 1 <<< top) <<< (52 - top))

theorem value_ofFields {negative : Bool} {exponent fraction : Nat} (small : exponent < 0x7FF)
    (fits : fraction < 0x10000000000000) :
    (ofFields negative exponent fraction).value =
      if exponent = 0 then .finite negative fraction (-1074)
      else .finite negative (0x10000000000000 + fraction) ((exponent : Int) - 1075) := by
  have bits : (ofFields negative exponent fraction).bits.toNat =
      (if negative then 0x8000000000000000 else 0) + exponent * 0x10000000000000 + fraction := by
    refine UInt64.toNat_ofNat_of_lt' ?_
    show _ < 2 ^ 64
    split <;> omega
  have sign : decide ((ofFields negative exponent fraction).bits.toNat ≥ 0x8000000000000000) =
      negative := by
    rw [bits]
    cases negative <;> simp <;> omega
  have high : (ofFields negative exponent fraction).bits.toNat / 0x10000000000000 % 0x800 =
      exponent := by
    rw [bits]
    split <;> omega
  have low : (ofFields negative exponent fraction).bits.toNat % 0x10000000000000 = fraction := by
    rw [bits]
    split <;> omega
  simp only [value, sign, high, low]
  rw [if_neg (Nat.ne_of_lt small)]

/-- The fraction of a single without a hidden bit, shifted until its top bit is the hidden one. -/
theorem hidden_add_shifted {fraction : Nat} (some : fraction ≠ 0) (short : fraction < 0x800000) :
    fraction.log2 < 23 ∧
      (fraction - 1 <<< fraction.log2) <<< (52 - fraction.log2) < 0x10000000000000 ∧
      0x10000000000000 + (fraction - 1 <<< fraction.log2) <<< (52 - fraction.log2) =
        fraction <<< (52 - fraction.log2) := by
  have top : fraction.log2 < 23 := (Nat.log2_lt some).2 short
  have low : 2 ^ fraction.log2 ≤ fraction := Nat.log2_self_le some
  have high : fraction < 2 ^ (fraction.log2 + 1) := Nat.lt_log2_self
  have whole : 2 ^ fraction.log2 * 2 ^ (52 - fraction.log2) = 0x10000000000000 := by
    rw [← Nat.pow_add, show fraction.log2 + (52 - fraction.log2) = 52 by omega]
  rw [Nat.one_shiftLeft, Nat.shiftLeft_eq, Nat.shiftLeft_eq]
  refine ⟨top, ?_, ?_⟩
  · rw [← whole]
    exact Nat.mul_lt_mul_of_pos_right (by omega) (Nat.two_pow_pos _)
  · rw [← whole, ← Nat.add_mul, Nat.add_sub_cancel' low]

/--
A finite single widens to a double of the same value: the significand is multiplied by a power of
two, and the exponent is lowered by as much.
-/
theorem value_ofSingle {bits : UInt32} (finite : bits.toNat / 0x800000 % 0x100 ≠ 0xFF) :
    let exponent := bits.toNat / 0x800000 % 0x100
    let fraction := bits.toNat % 0x800000
    ∃ k : Nat, (ofSingle bits).value = .finite (bits.toNat ≥ 0x80000000)
      ((if exponent = 0 then fraction else 0x800000 + fraction) <<< k)
      ((if exponent = 0 then -149 else (exponent : Int) - 150) - k) := by
  have small : bits.toNat / 0x800000 % 0x100 < 0x100 := Nat.mod_lt _ (by decide)
  have short : bits.toNat % 0x800000 < 0x800000 := Nat.mod_lt _ (by decide)
  simp only [ofSingle, if_neg finite]
  generalize bits.toNat / 0x800000 % 0x100 = exponent at *
  generalize bits.toNat % 0x800000 = fraction at *
  by_cases normal : exponent = 0
  · simp only [normal, ne_eq, not_true_eq_false, if_false, if_true]
    by_cases zero : fraction = 0
    · rw [if_pos zero, value_ofFields (by decide) (by decide), if_pos rfl]
      simp only [zero, Nat.zero_shiftLeft]
      exact ⟨925, rfl⟩
    · obtain ⟨top, fits, digits⟩ := hidden_add_shifted zero short
      have place : ((fraction.log2 + 874 : Nat) : Int) - 1075 =
          -149 - (52 - fraction.log2 : Nat) := by omega
      refine ⟨52 - fraction.log2, ?_⟩
      rw [if_neg zero, value_ofFields (by omega) fits, if_neg (by omega), digits, place]
  · have digits : 0x10000000000000 + fraction * 0x20000000 = (0x800000 + fraction) <<< 29 := by
      rw [Nat.shiftLeft_eq]
      omega
    have place : ((exponent + 896 : Nat) : Int) - 1075 = (exponent : Int) - 150 - (29 : Nat) := by
      omega
    refine ⟨29, ?_⟩
    rw [if_pos normal, value_ofFields (by omega) (by omega), if_neg (by omega), if_neg normal,
      if_neg normal, digits, place]

example : (ofSingle 0x00000001).value = .finite false (0x10000000000000) (-201) := by decide +kernel

end Binary64

end ManagedImage
