/-
Words of named bits. A set of flags is read by taking the declared flags in
order: a flag is taken if all its bits are set and one of them has not been
named yet. Bits that no flag names are kept apart.

Main statement: the bits that are left are those that no flag names
(`testBit_split`).
-/
import ManagedImage.Text.Hex

namespace ManagedImage

/-- A named mask. A mask may overlap another. -/
structure Flag where
  name : String
  mask : Nat
deriving DecidableEq, Repr

namespace Flag

/-- A mask is wholly set in `bits`. -/
def isSet (mask bits : Nat) : Bool := mask &&& bits = mask

/--
The flags of `declared` that `bits` shows, and the bits that none of them names.
`rest` are the bits not named so far.
-/
def split (bits rest : Nat) : List Flag → List Flag × Nat
  | [] => ([], rest)
  | flag :: later =>
    if flag.mask &&& bits = flag.mask ∧ flag.mask &&& rest ≠ 0 then
      let (taken, left) := split bits (rest ^^^ (flag.mask &&& rest)) later
      (flag :: taken, left)
    else split bits rest later

/-- The flags that `bits` shows, in the order of their declaration. -/
def shown (declared : List Flag) (bits : Nat) : List Flag := (split bits bits declared).1

/-- The names of the flags and the unnamed bits, joined by bars; `0x0` if there is none. -/
def describe (declared : List Flag) (bits : Nat) : String :=
  let (taken, left) := split bits bits declared
  let parts := taken.map (·.name) ++ if left = 0 then [] else [Hex.marked 0 left]
  if parts.isEmpty then "0x0" else " | ".intercalate parts

theorem isSet_of_mem_split {flag : Flag} {bits rest : Nat} {declared : List Flag}
    (mem : flag ∈ (split bits rest declared).1) :
    flag ∈ declared ∧ isSet flag.mask bits = true := by
  induction declared generalizing rest with
  | nil => cases mem
  | cons first later ih =>
    rw [split] at mem
    split at mem
    next shows =>
      rcases List.mem_cons.1 mem with rfl | mem
      · exact ⟨List.mem_cons_self, decide_eq_true shows.1⟩
      · exact ⟨List.mem_cons_of_mem _ (ih mem).1, (ih mem).2⟩
    next => exact ⟨List.mem_cons_of_mem _ (ih mem).1, (ih mem).2⟩

/-- What is left are the bits that no flag names, each of them and no other. -/
theorem testBit_split (bits rest : Nat) (declared : List Flag) (i : Nat) :
    (split bits rest declared).2.testBit i =
      (rest.testBit i && !(split bits rest declared).1.any (·.mask.testBit i)) := by
  induction declared generalizing rest with
  | nil => simp [split]
  | cons flag later ih =>
    rw [split]
    split
    · rw [ih, List.any_cons, Nat.testBit_xor, Nat.testBit_and]
      cases rest.testBit i <;> cases flag.mask.testBit i <;> simp
    · exact ih rest

example : describe [⟨"A", 1⟩, ⟨"B", 2⟩] 0x13 = "A | B | 0x10" := by decide +kernel

end Flag

end ManagedImage
