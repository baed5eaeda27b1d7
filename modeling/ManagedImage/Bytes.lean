/-
Byte vectors and the numbers written in them. A field of `n` bytes is read
little-endian by `leNat` and written by `leBytes`; the length prefixes of the
heaps are the one place where bytes are read big-endian (`beNat`).

Main statements: a field is below its capacity (`leNat_lt`), it is a function of
its own bytes only (`leNat_congr`), the bytes of the field are its digits
(`leNat_succ`), and a field that was written holds the number (`leNat_leBytes`).
-/

namespace ManagedImage

/-- A file, a stream, a heap or a run of code. -/
abbrev Bytes := Array UInt8

/-- The half-open range of positions from `start` up to, not including, `stop`. -/
structure Span where
  start : Nat
  stop : Nat
deriving DecidableEq, Repr

namespace Span

/-- A reversed span has length zero. -/
def length (s : Span) : Nat := s.stop - s.start

/-- The span `d` positions further on. -/
def shift (s : Span) (d : Nat) : Span := ⟨d + s.start, d + s.stop⟩

instance : Membership Nat Span := ⟨fun s i => s.start ≤ i ∧ i < s.stop⟩

theorem mem_def {s : Span} {i : Nat} : i ∈ s ↔ s.start ≤ i ∧ i < s.stop := Iff.rfl

instance (s : Span) (i : Nat) : Decidable (i ∈ s) :=
  inferInstanceAs (Decidable (s.start ≤ i ∧ i < s.stop))

end Span

namespace Bytes

/-- How many numbers a field of `n` bytes can hold. -/
def capacity : Nat → Nat
  | 0 => 1
  | n + 1 => 256 * capacity n

/-- The number whose base-256 digits, lowest first, are the `n` bytes from `pos` on. -/
def leNat (data : Bytes) (pos : Nat) : Nat → Nat
  | 0 => 0
  | n + 1 => (data.getD pos 0).toNat + 256 * leNat data (pos + 1) n

/-- The `n` lowest base-256 digits of a number, lowest first. -/
def leBytes : Nat → Nat → List UInt8
  | 0, _ => []
  | n + 1, value => UInt8.ofNat (value % 256) :: leBytes n (value / 256)

/-- The number whose base-256 digits, highest first, are `high` and then the bytes of `data`. -/
def beNat (high : Nat) (data : Bytes) : Nat :=
  data.foldl (fun value byte => value * 256 + byte.toNat) high

@[simp] theorem leNat_zero (data : Bytes) (pos : Nat) : leNat data pos 0 = 0 := rfl

theorem leNat_succ (data : Bytes) (pos n : Nat) :
    leNat data pos (n + 1) = (data.getD pos 0).toNat + 256 * leNat data (pos + 1) n := rfl

theorem leNat_lt (data : Bytes) (pos n : Nat) : leNat data pos n < capacity n := by
  induction n generalizing pos with
  | zero => exact Nat.one_pos
  | succ n ih =>
    have head : (data.getD pos 0).toNat < 256 := UInt8.toNat_lt _
    have tail := ih (pos + 1)
    rw [leNat_succ, capacity]
    omega

theorem leNat_congr {a b : Bytes} {pos n : Nat}
    (agree : ∀ i, pos ≤ i → i < pos + n → a[i]? = b[i]?) : leNat a pos n = leNat b pos n := by
  induction n generalizing pos with
  | zero => rfl
  | succ n ih =>
    have head : a.getD pos 0 = b.getD pos 0 := by
      simp only [Array.getD_eq_getD_getElem?, agree pos (Nat.le_refl _) (by omega)]
    rw [leNat_succ, leNat_succ, head, ih fun i low high => agree i (by omega) (by omega)]

@[simp] theorem length_leBytes (n value : Nat) : (leBytes n value).length = n := by
  induction n generalizing value with
  | zero => rfl
  | succ n ih => rw [leBytes, List.length_cons, ih]

/-- A field that was written holds the number, as far as the field is wide enough. -/
theorem leNat_leBytes (before after : List UInt8) (n value : Nat) :
    leNat (before ++ leBytes n value ++ after).toArray before.length n = value % capacity n := by
  induction n generalizing before value with
  | zero => rw [leNat_zero, capacity, Nat.mod_one]
  | succ n ih =>
    have head : (before ++ leBytes (n + 1) value ++ after).toArray.getD before.length 0 =
        UInt8.ofNat (value % 256) := by
      simp [Array.getD_eq_getD_getElem?, leBytes]
    have shifted : before ++ leBytes (n + 1) value ++ after =
        (before ++ [UInt8.ofNat (value % 256)]) ++ leBytes n (value / 256) ++ after := by
      simp [leBytes]
    have tail := ih (before ++ [UInt8.ofNat (value % 256)]) (value / 256)
    rw [List.length_append, List.length_singleton, ← shifted] at tail
    rw [leNat_succ, head, tail, UInt8.toNat_ofNat', Nat.mod_mod, capacity, Nat.mod_mul]

/-- The bytes before the first zero byte, all of them if there is none. -/
def upToNul (data : Bytes) : Bytes := data.takeWhile (· ≠ 0)

theorem toList_upToNul (data : Bytes) : data.upToNul.toList = data.toList.takeWhile (· ≠ 0) :=
  Array.toList_takeWhile

theorem upToNul_front (data : Bytes) : data.upToNul.toList <+: data.toList := by
  rw [toList_upToNul]
  exact List.takeWhile_prefix _

theorem size_upToNul_le (data : Bytes) : data.upToNul.size ≤ data.size :=
  (upToNul_front data).length_le

theorem extract_upToNul (data : Bytes) : data.extract 0 data.upToNul.size = data.upToNul := by
  apply Array.toList_inj.1
  rw [Array.toList_extract, List.extract_eq_take_drop, List.drop_zero, Nat.sub_zero]
  exact (List.prefix_iff_eq_take.1 (upToNul_front data)).symm

theorem zero_notMem_upToNul (data : Bytes) : 0 ∉ data.upToNul.toList := by
  intro zero
  rw [toList_upToNul] at zero
  simpa using List.all_eq_true.1 List.all_takeWhile _ zero

end Bytes

end ManagedImage
