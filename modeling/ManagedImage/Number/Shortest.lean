/-
The shortest decimal text of a double. Among the decimals that round back to
the number, those with the fewest digits are kept, and of these the one nearest
to it; of two equally near the larger is taken. The text is positional: it has
no exponent, however large or small the number is.

The decimals that round back form an interval around the number, which holds
its ends when the significand is even. With a given count of digits only the two
neighbours of the number on that decimal grid need a test.

Main statement: a decimal that is found lies in the interval, and on no coarser
grid that was searched is there one next to the number (`search_spec`).
-/
import ManagedImage.Number.Binary64

namespace ManagedImage.Binary64

/-- The numbers between `low / den` and `high / den`, around `mid / den`. -/
structure Interval where
  low : Nat
  mid : Nat
  high : Nat
  den : Nat
  /-- Whether the ends belong to the interval. -/
  closed : Bool

namespace Interval

/-- The reals that round to `m * 2 ^ q`. Below a power of two the gap is half as wide. -/
def around (m : Nat) (q : Int) : Interval :=
  let unit := 1 <<< (q - 2).toNat
  let below := if m = 0x10000000000000 then 1 else 2
  ⟨(4 * m - below) * unit, 4 * m * unit, (4 * m + 2) * unit, 1 <<< (2 - q).toNat, m % 2 = 0⟩

/-- Every number of the interval divided by `10 ^ e`. -/
def scale (i : Interval) (e : Int) : Interval :=
  let up := Nat.pow 10 (-e).toNat
  ⟨i.low * up, i.mid * up, i.high * up, i.den * Nat.pow 10 e.toNat, i.closed⟩

/-- Whether the whole number `n` lies in the interval. -/
def has (i : Interval) (n : Nat) : Bool :=
  if i.closed then i.low ≤ n * i.den && n * i.den ≤ i.high
  else i.low < n * i.den && n * i.den < i.high

/-- The whole number of the interval nearest to its middle, the larger of two. -/
def nearest? (i : Interval) : Option Nat :=
  let below := i.mid / i.den
  match i.has below, i.has (below + 1) with
  | true, true => some (if (2 * below + 1) * i.den ≤ 2 * i.mid then below + 1 else below)
  | true, false => some below
  | false, true => some (below + 1)
  | false, false => none

/-- The exponent of the first decimal digit of the middle, which is not zero. -/
def magnitude (i : Interval) : Int :=
  if i.den ≤ i.mid then ((Nat.toDigits 10 (i.mid / i.den)).length : Int) - 1
  else -((Nat.toDigits 10 ((i.den + i.mid - 1) / i.mid - 1)).length : Int)

/--
Looks for a decimal whose last digit stands for `10 ^ e`, then for `10 ^ (e - 1)`,
and so on; past the last grid the middle is cut off.
-/
def search (i : Interval) (e : Int) : Nat → Nat × Int
  | 0 => ((i.scale e).mid / (i.scale e).den, e)
  | more + 1 =>
    match (i.scale e).nearest? with
    | some n => (n, e)
    | none => search i (e - 1) more

/--
The shortest decimal of the interval as digits and the exponent of the last.
Seventeen digits tell any two doubles apart, so the seventeenth grid is the last needed.
-/
def shortest (i : Interval) : Nat × Int := i.search i.magnitude 17

theorem has_of_nearest? {i : Interval} {n : Nat} (h : i.nearest? = some n) : i.has n = true := by
  unfold nearest? at h
  simp only at h
  split at h
  next below above => split at h <;> cases h <;> assumption
  next below above => cases h; exact below
  next below above => cases h; exact above
  next => cases h

/-- The grids are searched from the coarsest to the finest, up to the first with a decimal. -/
theorem search_spec (i : Interval) (e : Int) (more : Nat) :
    ∃ passed : Nat, (i.search e more).2 = e - passed ∧
      (∀ k : Nat, k < passed → (i.scale (e - k)).nearest? = none) ∧
      ((i.scale (e - passed)).has (i.search e more).1 = true ∨ passed = more) := by
  induction more generalizing e with
  | zero => exact ⟨0, (Int.sub_zero e).symm, fun k less => absurd less (Nat.not_lt_zero k), .inr rfl⟩
  | succ more ih =>
    rw [search]
    split
    next n found =>
      refine ⟨0, (Int.sub_zero e).symm, fun k less => absurd less (Nat.not_lt_zero k), .inl ?_⟩
      exact (congrArg (fun e => (i.scale e).has n) (Int.sub_zero e)).trans (has_of_nearest? found)
    next none =>
      obtain ⟨passed, place, coarser, last⟩ := ih (e - 1)
      have shift (k : Nat) : e - 1 - k = e - (k + 1 : Nat) := by omega
      refine ⟨passed + 1, by rw [place, shift], fun k less => ?_, ?_⟩
      · cases k with
        | zero => exact (congrArg (fun e => (i.scale e).nearest?) (Int.sub_zero e)).trans none
        | succ k => rw [← shift]; exact coarser k (Nat.lt_of_succ_lt_succ less)
      · rw [← shift]
        exact last.imp_right (congrArg (· + 1))

example : (around 0x1999999999999A (-56)).shortest = (1, -1) := by decide +kernel

end Interval

/-- The digits of `n`, which end at the place of `10 ^ e`, without an exponent. -/
def positional (n : Nat) (e : Int) : String :=
  let digits := Nat.toDigits 10 n
  let digits := if e < 0 then digits.reverse.dropWhile (· = '0') |>.reverse else digits
  let e := e + ((Nat.toDigits 10 n).length - digits.length : Nat)
  if 0 ≤ e then String.ofList (digits ++ List.replicate e.toNat '0')
  else
    let places := (-e).toNat
    let padded := List.leftpad (places + 1) '0' digits
    String.ofList (padded.take (padded.length - places) ++ '.' :: padded.drop (padded.length - places))

/-- The text of a double. -/
def text (x : Binary64) : String :=
  match x.value with
  | .nan => "NaN"
  | .infinite negative => if negative then "-inf" else "inf"
  | .finite negative m q =>
    let magnitude :=
      if m = 0 then "0"
      else
        let (n, e) := (Interval.around m q).shortest
        positional n e
    if negative then "-" ++ magnitude else magnitude

end ManagedImage.Binary64
