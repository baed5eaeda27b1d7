/-
Readers of fixed layout. From a cursor within its vector such a reader succeeds exactly
if a count of bytes that is known beforehand is there; it passes over them and answers
what the numbers at their positions state (`FixedLayout`). A sequence of such readers is
one again, so the position of each field of a header follows from the order in which its
fields are read.
-/
import ManagedImage.Proofs.Readers

namespace ManagedImage

theorem Bytes.uint16_eq_iff {data : Bytes} {pos : Nat} {half : UInt16} :
    UInt16.ofNat (data.leNat pos 2) = half ↔ data.leNat pos 2 = half.toNat := by
  have value : (UInt16.ofNat (data.leNat pos 2)).toNat = _ :=
    UInt16.toNat_ofNat_of_lt (data.leNat_lt pos 2)
  rw [← UInt16.toNat_inj, value]

theorem Bytes.uint32_eq_iff {data : Bytes} {pos : Nat} {word : UInt32} :
    UInt32.ofNat (data.leNat pos 4) = word ↔ data.leNat pos 4 = word.toNat := by
  have value : (UInt32.ofNat (data.leNat pos 4)).toNat = _ :=
    UInt32.toNat_ofNat_of_lt' (data.leNat_lt pos 4)
  rw [← UInt32.toNat_inj, value]

namespace Reader

variable {α β : Type} {n : Nat}

/-- Succeeds exactly if the next `n` bytes are there, and answers what they state. -/
class FixedLayout (r : Reader α) (n : outParam Nat) (states : outParam (Bytes → Nat → α)) :
    Prop where
  eq_ok : ∀ {data : Bytes} {pos : Nat} {v : α} {c' : Cursor}, pos ≤ data.size →
    (r ⟨data, pos⟩ = .ok v c' ↔
      pos + n ≤ data.size ∧ v = states data pos ∧ c' = ⟨data, pos + n⟩)

namespace FixedLayout

variable {r : Reader α} {states : Bytes → Nat → α} {data : Bytes} {pos : Nat}

theorem of_eq {states' : Bytes → Nat → α} {m : Nat} [FixedLayout r m states'] (size : m = n)
    (same : ∀ data pos, states' data pos = states data pos) : FixedLayout r n states := by
  obtain rfl := size
  obtain rfl : states' = states := funext fun data => funext (same data)
  infer_instance

theorem of_fits [FixedLayout r n states] (fits : pos + n ≤ data.size) :
    r ⟨data, pos⟩ = .ok (states data pos) ⟨data, pos + n⟩ :=
  (eq_ok (Nat.le_of_add_right_le fits)).2 ⟨fits, rfl, rfl⟩

/-- Behind a reader of fixed layout a sequence goes on with what stood there. -/
theorem bind_eq_ok [FixedLayout r n states] {f : α → Reader β} {v : β} {c' : Cursor}
    (inside : pos ≤ data.size) : (r >>= f) ⟨data, pos⟩ = .ok v c' ↔
      pos + n ≤ data.size ∧ f (states data pos) ⟨data, pos + n⟩ = .ok v c' := by
  rw [Reader.bind_eq_ok]
  constructor
  · rintro ⟨a, c₁, first, later⟩
    obtain ⟨fits, rfl, rfl⟩ := (eq_ok inside).1 first
    exact ⟨fits, later⟩
  · rintro ⟨fits, later⟩
    exact ⟨_, _, of_fits fits, later⟩

theorem le_remaining_iff (inside : pos ≤ data.size) :
    n ≤ Cursor.remaining ⟨data, pos⟩ ↔ pos + n ≤ data.size := by
  simp only [Cursor.remaining]
  omega

end FixedLayout

instance (a : α) : FixedLayout (pure a : Reader α) 0 (fun _ _ => a) where
  eq_ok inside := by
    rw [pure_eq_ok, eq_comm, @eq_comm Cursor]
    exact (and_iff_right inside).symm

instance {r : Reader α} {f : α → Reader β} {m n : Nat} {states : Bytes → Nat → α}
    {later : α → Bytes → Nat → β} [FixedLayout r m states] [∀ a, FixedLayout (f a) n (later a)] :
    FixedLayout (r >>= f) (m + n)
      (fun data pos => later (states data pos) data (pos + m)) where
  eq_ok {data pos v c'} inside := by
    rw [FixedLayout.bind_eq_ok inside, ← Nat.add_assoc]
    constructor
    · rintro ⟨fits, rest⟩
      exact (FixedLayout.eq_ok fits).1 rest
    · rintro ⟨fits, rest⟩
      have first := Nat.le_of_add_right_le fits
      exact ⟨first, (FixedLayout.eq_ok first).2 ⟨fits, rest⟩⟩

instance {r : Reader α} {f : α → β} {states : Bytes → Nat → α} [FixedLayout r n states] :
    FixedLayout (f <$> r) n (fun data pos => f (states data pos)) :=
  inferInstanceAs (FixedLayout (r >>= fun a => pure (f a)) (n + 0) _)

instance (n : Nat) : FixedLayout (nat n) n (fun data pos => data.leNat pos n) where
  eq_ok _ := by
    constructor
    · exact nat_keeps
    · rintro ⟨fits, rfl, rfl⟩
      exact nat_of_fits fits

instance (n : Nat) : FixedLayout (take n) n (fun data pos => data.extract pos (pos + n)) where
  eq_ok inside := by
    rw [← FixedLayout.le_remaining_iff inside]
    constructor
    · exact take_keeps
    · rintro ⟨fits, rfl, rfl⟩
      exact take_of_fits fits

instance (n : Nat) : FixedLayout (advance n) n (fun _ _ => ()) where
  eq_ok inside := by
    rw [← FixedLayout.le_remaining_iff inside]
    constructor
    · intro h
      obtain ⟨fits, rfl⟩ := advance_keeps h
      exact ⟨fits, rfl, rfl⟩
    · rintro ⟨fits, -, rfl⟩
      exact advance_of_fits fits

instance : FixedLayout u8 1 (fun data pos => UInt8.ofNat (data.leNat pos 1)) :=
  inferInstanceAs (FixedLayout (nat 1 >>= fun value => pure (UInt8.ofNat value)) (1 + 0) _)

instance : FixedLayout u16 2 (fun data pos => UInt16.ofNat (data.leNat pos 2)) :=
  inferInstanceAs (FixedLayout (nat 2 >>= fun value => pure (UInt16.ofNat value)) (2 + 0) _)

instance : FixedLayout u32 4 (fun data pos => UInt32.ofNat (data.leNat pos 4)) :=
  inferInstanceAs (FixedLayout (nat 4 >>= fun value => pure (UInt32.ofNat value)) (4 + 0) _)

instance : FixedLayout u64 8 (fun data pos => UInt64.ofNat (data.leNat pos 8)) :=
  inferInstanceAs (FixedLayout (nat 8 >>= fun value => pure (UInt64.ofNat value)) (8 + 0) _)

theorem fixedLayout_times (r : Reader α) {states : Bytes → Nat → α} [FixedLayout r n states]
    (count : Nat) : FixedLayout (times r count) (count * n)
      (fun data pos => (List.range count).map fun k => states data (pos + k * n)) := by
  induction count with
  | zero =>
    exact FixedLayout.of_eq (r := (pure [] : Reader (List α))) (Nat.zero_mul n).symm fun _ _ => rfl
  | succ count ih =>
    unfold times
    refine FixedLayout.of_eq (by rw [Nat.add_zero, Nat.succ_mul, Nat.add_comm]) fun data pos => ?_
    simp only [List.range_succ_eq_map, List.map_cons, List.map_map, Nat.zero_mul, Nat.add_zero]
    refine congrArg (states data pos :: ·) (List.map_congr_left fun k _ => ?_)
    rw [Function.comp_apply, Nat.add_assoc, Nat.succ_mul, Nat.add_comm n]

instance {r : Reader α} {states : Bytes → Nat → α} [FixedLayout r n states] {count : Nat} :
    FixedLayout (times r count) (count * n)
      (fun data pos => (List.range count).map fun k => states data (pos + k * n)) :=
  fixedLayout_times r count

end Reader

end ManagedImage
