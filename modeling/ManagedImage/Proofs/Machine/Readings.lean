/-
Readers as programs of the machine. A reading is a reader whose operations are
those of the machine, so it may also be broken off. `Programmed` pairs a reader
with its reading: from every cursor that the machine can hold, the reading ends
exactly as the reader does, and the cursor it leaves is again one that the
machine can hold (`Cursor.Addressable`).

The operations of a cursor have readings of their own, with every sum, cut and
remainder that they take. A reader that is put together from others, and does
no arithmetic besides, has the reading that is put together in the same way;
one that does has a reading that spells its arithmetic out.
-/
import ManagedImage.Proofs.Machine.Words
import ManagedImage.Proofs.Readers

namespace ManagedImage

/-- The machine can hold the cursor: it stands within its vector, and that has a size. -/
structure Cursor.Addressable (c : Cursor) : Prop where
  inside : c.pos ≤ c.data.size
  short : c.data.size < 2 ^ 63

theorem Cursor.addressable_start {data : Bytes} (short : data.size < 2 ^ 63) :
    (Cursor.start data).Addressable := ⟨Nat.zero_le _, short⟩

namespace Machine

variable {α β γ : Type}

/-- A reader on the machine. -/
abbrev Reading := EStateM Fault Cursor

/-- The end of a reader, as that of a reading which was not broken off. -/
def ended : EStateM.Result Error Cursor α → EStateM.Result Fault Cursor α
  | .ok a c => .ok a c
  | .error e c => .error (.refused e) c

instance : MonadLift Run Reading where
  monadLift run c :=
    match run with
    | .ok a => .ok a c
    | .error fault => .error fault c

/-- Reads a vector from a position on. -/
def Reading.runAt (p : Reading α) (data : Bytes) (pos : Nat) : Run α :=
  match p ⟨data, pos⟩ with
  | .ok a _ => .ok a
  | .error fault _ => .error fault

theorem runAt_of_ended {p : Reading α} {r : Reader α} {data : Bytes} {pos : Nat}
    (same : p ⟨data, pos⟩ = ended (r ⟨data, pos⟩)) : p.runAt data pos = Run.of (r.runAt data pos) := by
  rw [Reading.runAt, same, Reader.runAt]
  cases r ⟨data, pos⟩ <;> rfl

theorem bind_ended {p : Reading α} {q : α → Reading β} {r : Reader α}
    {f : α → Reader β} {c : Cursor} (first : p c = ended (r c))
    (second : ∀ {a c'}, r c = .ok a c' → q a c' = ended (f a c')) :
    (p >>= q) c = ended ((r >>= f) c) := by
  show EStateM.bind p q c = ended (EStateM.bind r f c)
  rw [EStateM.bind, EStateM.bind, first]
  cases read : r c with
  | ok a c' => exact second read
  | error e c' => rfl

theorem lift_bind {run : Run α} {a : α} (h : run = .ok a) (q : α → Reading β) :
    ((liftM run : Reading α) >>= q) = q a := by
  subst h
  rfl

/-- A computation on the side, whose refusal ends the reading as well. -/
theorem lift_of (x : Except Error α) (c : Cursor) :
    (liftM (Run.of x) : Reading α) c = ended (Reader.ofExcept x c) := by cases x <;> rfl

/-- A reader that stays within its vector leaves a cursor that the machine can hold. -/
theorem addressable_of_read {r : Reader α} [Reader.Local r] [Reader.Within r] {c c' : Cursor} {a : α}
    (h : r c = .ok a c') (sound : c.Addressable) : c'.Addressable := by
  obtain ⟨same, -⟩ := Reader.Local.keeps h
  exact ⟨Reader.Within.inside h sound.inside, by rw [same]; exact sound.short⟩

/-! ## Readers with a reading -/

/-- A reader and its reading on the machine. -/
class Programmed (r : Reader α) where
  program : Reading α
  faithful : ∀ {c : Cursor}, c.Addressable → program c = ended (r c)
  keeps : ∀ {c c' : Cursor} {a : α}, r c = .ok a c' → c.Addressable → c'.Addressable

open Programmed (program faithful keeps)

theorem bind_program {r : Reader α} [Programmed r] {q : α → Reading β}
    {f : α → Reader β} {c : Cursor} (sound : c.Addressable)
    (second : ∀ {a c'}, r c = .ok a c' → c'.Addressable → q a c' = ended (f a c')) :
    (program r >>= q) c = ended ((r >>= f) c) :=
  bind_ended (faithful sound) fun read => second read (keeps read sound)

/-- What is read behind the position, which is where the cursor stands. -/
theorem bind_position {q : Nat → Reading β} {f : Nat → Reader β} {c : Cursor}
    (second : q c.pos c = ended (f c.pos c)) :
    ((do return (← get).pos : Reading Nat) >>= q) c = ended ((Reader.position >>= f) c) := second

theorem runAt_program {r : Reader α} [Programmed r] {data : Bytes} {pos : Nat}
    (sound : Cursor.Addressable ⟨data, pos⟩) :
    (program r).runAt data pos = Run.of (r.runAt data pos) := runAt_of_ended (faithful sound)

theorem runAt_of_ok {r : Reader α} [Programmed r] {data : Bytes} {pos : Nat} {a : α} {c' : Cursor}
    (sound : Cursor.Addressable ⟨data, pos⟩) (h : r ⟨data, pos⟩ = .ok a c') :
    (program r).runAt data pos = .ok a := by
  rw [Reading.runAt, faithful sound, h]
  rfl

instance (a : α) : Programmed (pure a : Reader α) where
  program := pure a
  faithful _ := rfl
  keeps h sound := by cases h; exact sound

instance {r : Reader α} {f : α → Reader β} [Programmed r]
    [∀ a, Programmed (f a)] : Programmed (r >>= f) where
  program := program r >>= fun a => program (f a)
  faithful sound := bind_program sound fun _ sound' => faithful sound'
  keeps h sound := by
    obtain ⟨a, c₁, first, second⟩ := Reader.bind_eq_ok.1 h
    exact keeps second (keeps first sound)

instance {r : Reader α} {f : α → β} [Programmed r] : Programmed (f <$> r) :=
  inferInstanceAs (Programmed (r >>= fun a => pure (f a)))

instance {p : Prop} [Decidable p] {r s : Reader α} [Programmed r] [Programmed s] :
    Programmed (if p then r else s) where
  program := if p then program r else program s
  faithful sound := by split <;> exact faithful sound
  keeps h sound := by split at h <;> exact keeps h sound

instance (e : Error) : Programmed (throw e : Reader α) where
  program := throw (.refused e)
  faithful _ := rfl
  keeps h := nomatch h

instance (d : Defect) : Programmed (Reader.malformed d : Reader α) :=
  inferInstanceAs (Programmed (throw (Error.malformed d)))

/- A failed check ends the reading, whatever would follow it. -/
instance (priority := 2000) {d : Defect} {f : α → Reader β} :
    Programmed (Reader.malformed d >>= f) where
  program := throw (.refused (.malformed d))
  faithful _ := rfl
  keeps h := nomatch h

instance : Programmed (get : Reader Cursor) where
  program := get
  faithful _ := rfl
  keeps h sound := by cases h; exact sound

instance : Programmed Reader.position where
  program := return (← get).pos
  faithful _ := rfl
  keeps h sound := by cases h; exact sound

/-- A reader that needs what the machine works out first. -/
@[reducible] def computed {x : γ} (run : Run γ) (answer : run = .ok x) (r : γ → Reader α)
    [∀ y, Programmed (r y)] : Programmed (r x) where
  program := do program (r (← run))
  faithful {c} sound := by
    rw [lift_bind answer]
    exact faithful sound
  keeps h sound := keeps h sound

/-- A computation on the side, which the machine carries out with operations of its own. -/
@[reducible] def computing {x : Except Error α} (run : Run α) (answer : run = Run.of x) :
    Programmed (Reader.ofExcept x) where
  program := liftM run
  faithful {c} _ := by
    rw [answer]
    exact lift_of x c
  keeps h sound := by obtain ⟨-, rfl⟩ := Reader.ofExcept_eq_ok.1 h; exact sound

/-! ## The operations of a cursor -/

/-- The little-endian number in the next `n` bytes. Its end is tested before it is read. -/
def readNat (n : Nat) : Reading Nat := do
  let c ← get
  match (checked 64 (c.pos + n)).filter (· ≤ c.data.size) with
  | some stop =>
    let field ← cut c.data c.pos stop
    set { c with pos := stop }
    return field.leNat 0 n
  | none => throw (.refused (.outOfBounds c.pos n c.data.size))

/-- Demands `n` more bytes; the count of those left never falls below zero. -/
def ensure (n : Nat) : Reading Unit := do
  let c ← get
  if c.remaining < n then throw (.refused (.outOfBounds c.pos n c.data.size))

/-- Passes over `n` bytes. -/
def advance (n : Nat) : Reading Unit := do
  ensure n
  let c ← get
  let pos ← add 64 c.pos n
  set { c with pos }

/-- The next `n` bytes. -/
def take (n : Nat) : Reading Bytes := do
  ensure n
  let c ← get
  let stop ← add 64 c.pos n
  let part ← cut c.data c.pos stop
  let pos ← add 64 c.pos n
  set { c with pos }
  return part

/-- Passes over the bytes up to the next multiple of `unit`. -/
def align (unit : Nat) : Reading Unit := do
  let past ← rem (← get).pos unit
  let gap ← sub unit past
  advance (← rem gap unit)

/-- Goes to any position up to the end. -/
def seek (pos : Nat) : Reading Unit := do
  let c ← get
  if c.data.size < pos then throw (.refused (.outOfBounds pos 0 c.data.size))
  set { c with pos }

/-- What a reading would answer, from where the cursor stays. -/
def peek (p : Reading α) : Reading α := fun c =>
  match p c with
  | .ok a _ => .ok a c
  | .error fault _ => .error fault c

theorem readNat_faithful {n : Nat} {c : Cursor} (sound : c.Addressable) :
    readNat n c = ended (Reader.nat n c) := by
  rw [readNat, Reader.bind_of_ok (Reader.get_ok c), filter_checked sound.short]
  by_cases fits : c.pos + n ≤ c.data.size
  · have field : Bytes.leNat (c.data.extract c.pos (c.pos + n)) 0 n = c.data.leNat c.pos n :=
      Bytes.leNat_of_extract rfl (by rw [Array.size_extract]; omega)
    rw [if_pos fits, Reader.nat_of_fits fits, ← field]
    exact congrFun (lift_bind (cut_eq (Nat.le_add_right ..) fits) _) c
  · rw [if_neg fits, Reader.nat_of_lacks fits]
    rfl

theorem ensure_faithful (n : Nat) (c : Cursor) : ensure n c = ended (Reader.ensure n c) := by
  rw [ensure, Reader.bind_of_ok (Reader.get_ok c)]
  by_cases fits : n ≤ c.remaining
  · rw [if_neg (Nat.not_lt.2 fits), Reader.ensure_of_fits fits]
    rfl
  · rw [if_pos (Nat.lt_of_not_le fits), Reader.ensure_of_lacks fits]
    rfl

/-- Where there are enough bytes, the position behind them is an address. -/
theorem add_pos_eq {n : Nat} {c : Cursor} (sound : c.Addressable) (fits : n ≤ c.remaining) :
    add 64 c.pos n = .ok (c.pos + n) := by
  have inside := sound.inside
  have short := sound.short
  simp only [Cursor.remaining] at fits
  exact add_eq (by omega)

theorem advance_faithful {n : Nat} {c : Cursor} (sound : c.Addressable) :
    advance n c = ended (Reader.advance n c) := by
  have enough := ensure_faithful n c
  by_cases fits : n ≤ c.remaining
  · rw [Reader.ensure_of_fits fits] at enough
    rw [advance, Reader.bind_of_ok enough, Reader.bind_of_ok (Reader.get_ok c),
      lift_bind (add_pos_eq sound fits), Reader.advance_of_fits fits]
    rfl
  · rw [Reader.ensure_of_lacks fits] at enough
    rw [advance, Reader.bind_of_error enough, Reader.advance_of_lacks fits]
    rfl

theorem take_faithful {n : Nat} {c : Cursor} (sound : c.Addressable) :
    take n c = ended (Reader.take n c) := by
  have enough := ensure_faithful n c
  by_cases fits : n ≤ c.remaining
  · have inside : c.pos + n ≤ c.data.size := by
      have inside := sound.inside
      simp only [Cursor.remaining] at fits
      omega
    have moved := add_pos_eq sound fits
    rw [Reader.ensure_of_fits fits] at enough
    rw [take, Reader.bind_of_ok enough, Reader.bind_of_ok (Reader.get_ok c), lift_bind moved,
      lift_bind (cut_eq (Nat.le_add_right ..) inside), lift_bind moved, Reader.take_of_fits fits]
    rfl
  · rw [Reader.ensure_of_lacks fits] at enough
    rw [take, Reader.bind_of_error enough, Reader.take_of_lacks fits]
    rfl

theorem align_faithful {unit : Nat} (some : unit ≠ 0) {c : Cursor} (sound : c.Addressable) :
    align unit c = ended (Reader.align unit c) := by
  have past : c.pos % unit ≤ unit := Nat.le_of_lt (Nat.mod_lt _ (Nat.pos_of_ne_zero some))
  rw [align, Reader.bind_of_ok (Reader.get_ok c), lift_bind (rem_eq some), lift_bind (sub_eq past),
    lift_bind (rem_eq some)]
  exact advance_faithful sound

instance (n : Nat) : Programmed (Reader.nat n) where
  program := readNat n
  faithful := readNat_faithful
  keeps := addressable_of_read

instance (n : Nat) : Programmed (Reader.ensure n) where
  program := ensure n
  faithful _ := ensure_faithful n _
  keeps := addressable_of_read

instance (n : Nat) : Programmed (Reader.advance n) where
  program := advance n
  faithful := advance_faithful
  keeps := addressable_of_read

instance (n : Nat) : Programmed (Reader.take n) where
  program := take n
  faithful := take_faithful
  keeps := addressable_of_read

instance (unit : Nat) : Programmed (Reader.align (unit + 1)) where
  program := align (unit + 1)
  faithful := align_faithful (Nat.succ_ne_zero unit)
  keeps := addressable_of_read

instance (pos : Nat) : Programmed (Reader.seek pos) where
  program := seek pos
  faithful {c} _ := by
    rw [seek, Reader.bind_of_ok (Reader.get_ok c), Reader.seek]
    by_cases inside : pos ≤ c.data.size
    · rw [if_neg (Nat.not_lt.2 inside), if_pos inside]
      rfl
    · rw [if_pos (Nat.lt_of_not_le inside), if_neg inside]
      rfl
  keeps {c c' _} h sound := by
    rw [Reader.seek] at h
    split at h
    · next inside => cases h; exact ⟨inside, sound.short⟩
    · cases h

instance {r : Reader α} [Programmed r] : Programmed (Reader.peek r) where
  program := peek (program r)
  faithful {c} sound := by
    rw [peek, faithful sound, Reader.peek]
    cases r c <;> rfl
  keeps {c c' _} h sound := by
    rw [Reader.peek] at h
    split at h
    · cases h; exact sound
    · cases h

instance : Programmed Reader.u8 := by delta Reader.u8; infer_instance
instance : Programmed Reader.u16 := by delta Reader.u16; infer_instance
instance : Programmed Reader.u32 := by delta Reader.u32; infer_instance
instance : Programmed Reader.u64 := by delta Reader.u64; infer_instance
instance (n : Nat) : Programmed (Reader.int n) := by delta Reader.int; infer_instance
instance (large : Bool) : Programmed (Reader.index large) := by delta Reader.index; infer_instance

/-! ## Parts of a vector -/

theorem addressable_of_take {n : Nat} {c c' : Cursor} {part : Bytes}
    (taken : Reader.take n c = .ok part c') (sound : c.Addressable) :
    (Cursor.start part).Addressable := by
  obtain ⟨-, rfl, -⟩ := Reader.take_keeps taken
  have short := sound.short
  refine Cursor.addressable_start ?_
  rw [Array.size_extract]
  omega

theorem size_of_take {n : Nat} {c c' : Cursor} {part : Bytes} (taken : Reader.take n c = .ok part c') :
    part.size = n := by
  obtain ⟨enough, rfl, -⟩ := Reader.take_keeps taken
  simp only [Cursor.remaining] at enough
  rw [Array.size_extract]
  omega

/-- The next `n` bytes, copied into an array of as many. -/
@[reducible] def copied (n : Nat) (f : Bytes → Reader β) [∀ part, Programmed (f part)] :
    Programmed (Reader.take n >>= f) where
  program := do
    let part ← program (Reader.take n)
    demand (part.size = n)
    program (f part)
  faithful sound := bind_program sound fun taken sound' => by
    rw [lift_bind (demand_eq (size_of_take taken))]
    exact faithful sound'
  keeps h sound := keeps h sound

/-- The next `n` bytes, with a reader of its own for them. -/
instance (n : Nat) (r : Reader α) [Programmed r] :
    Programmed (Reader.take n >>= fun part => Reader.ofExcept (r.run part)) where
  program := do
    let part ← program (Reader.take n)
    (program r).runAt part 0
  faithful sound := bind_program sound fun {part c'} taken _ => by
    rw [runAt_program (addressable_of_take taken sound)]
    exact lift_of _ c'
  keeps {c c' a} h sound := by
    obtain ⟨part, c₁, taken, h⟩ := Reader.bind_eq_ok.1 h
    obtain ⟨-, rfl⟩ := Reader.ofExcept_eq_ok.1 h
    exact keeps taken sound

/-! ## Repetitions -/

/-- The reading of a repetition is the repetition of the reading. -/
instance programmedTimes (r : Reader α) [Programmed r] : (n : Nat) → Programmed (Reader.times r n)
  | 0 => inferInstanceAs (Programmed (pure [] : Reader (List α)))
  | n + 1 =>
    have := programmedTimes r n
    inferInstanceAs (Programmed (r >>= fun a => Reader.times r n >>= fun as => pure (a :: as)))

instance programmedCollect (r : Reader α) [Programmed r] :
    (fuel : Nat) → (seen : Array α) → Programmed (Reader.collect r fuel seen)
  | 0, seen => inferInstanceAs (Programmed (pure seen : Reader (Array α)))
  | fuel + 1, seen =>
    have := programmedCollect r fuel
    inferInstanceAs (Programmed ((get : Reader Cursor) >>= fun c =>
      if c.hasMore then r >>= fun a => Reader.collect r fuel (seen.push a) else pure seen))

instance (r : Reader α) [Programmed r] : Programmed (Reader.untilEnd r) := by
  delta Reader.untilEnd; infer_instance

end Machine

end ManagedImage
