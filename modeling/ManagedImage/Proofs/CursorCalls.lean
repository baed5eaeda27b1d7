/-
Cursors under any sequence of calls, with successes and failures mixed. A call that fails
may have moved the cursor: a number, a text or an instruction that turns out to be broken
is passed over in part. What every call keeps, whatever its outcome, is that the cursor
stands in its vector (`Cursor.afterCalls_inBounds`), and every call but `seek` keeps it
from going back (`Call.onward`).

A call of one access moves on success only (`Reader.Unmoved`). It succeeds exactly if
what it asks for is there (`Access.succeeds_iff`), and any call that succeeds has passed over
the bytes that its answer states (`Call.serves_of_ok`).

Main statement: `Cursor.calls_stay_within`.
-/
import Mathlib.Order.Bounds.Basic
import ManagedImage.Proofs.PassedBytes

namespace ManagedImage

open Reader

/-! ## What is left of a cursor -/

namespace Cursor

variable {α : Type} {c c₁ c' : Cursor}

/-- The cursor that a reader leaves, whether it succeeds or fails. -/
def after (c : Cursor) (r : Reader α) : Cursor :=
  match r c with
  | .ok _ c' => c'
  | .error _ c' => c'

theorem after_of_ok {r : Reader α} {v : α} (h : r c = .ok v c') : c.after r = c' := by
  rw [after, h]

theorem after_of_error {r : Reader α} {e : Error} (h : r c = .error e c') : c.after r = c' := by
  rw [after, h]

/-- Over the same vector, no further back, and not behind the end. -/
structure Onward (c c' : Cursor) : Prop where
  data_eq : c'.data = c.data
  forward : c.pos ≤ c'.pos
  inside : c'.InBounds

theorem Onward.refl (inside : c.InBounds) : c.Onward c := ⟨rfl, Nat.le_refl _, inside⟩

theorem Onward.trans (first : c.Onward c₁) (later : c₁.Onward c') : c.Onward c' where
  data_eq := later.data_eq.trans first.data_eq
  forward := Nat.le_trans first.forward later.forward
  inside := later.inside

end Cursor

namespace Reader

variable {α β : Type} {c c' : Cursor}

/-- The little-endian number in the next `n` bytes, in two's complement if it is signed. -/
def number (n : Nat) (signed : Bool) : Reader Int :=
  if signed then int n else (fun value : Nat => (value : Int)) <$> nat n

/-- A failure leaves the cursor as it was. -/
class Unmoved (r : Reader α) : Prop where
  stays : ∀ {c c' : Cursor} {e : Error}, r c = .error e c' → c' = c

instance (n : Nat) : Unmoved (nat n) where
  stays h := by
    unfold nat at h
    split at h <;> cases h
    rfl

instance (n : Nat) : Unmoved (take n) where
  stays h := by
    unfold take at h
    split at h <;> cases h
    rfl

instance (n : Nat) : Unmoved (ensure n) where
  stays h := by
    unfold ensure at h
    split at h <;> cases h
    rfl

instance (n : Nat) : Unmoved (advance n) where
  stays h := by
    unfold advance at h
    split at h <;> cases h
    rfl

instance (unit : Nat) : Unmoved (align unit) where
  stays h := Unmoved.stays (r := advance _) h

instance (pos : Nat) : Unmoved (seek pos) where
  stays h := by
    unfold seek at h
    split at h <;> cases h
    rfl

instance (r : Reader α) : Unmoved (peek r) where
  stays h := by
    unfold peek at h
    split at h <;> cases h
    rfl

/- A failure of one field is that of the bytes, which are read before the answer is made. -/
instance {r : Reader α} {f : α → β} [Unmoved r] : Unmoved (r >>= fun a => pure (f a)) where
  stays h := by
    rcases bind_eq_error.1 h with failed | ⟨a, c₁, -, failed⟩
    · exact Unmoved.stays failed
    · cases failed

instance {r : Reader α} {f : α → β} [Unmoved r] : Unmoved (f <$> r) :=
  inferInstanceAs (Unmoved (r >>= fun a => pure (f a)))

instance {p : Prop} [Decidable p] {r s : Reader α} [Unmoved r] [Unmoved s] :
    Unmoved (if p then r else s) := by split <;> infer_instance

instance (n : Nat) : Unmoved (int n) := by unfold int; infer_instance
instance (n : Nat) (signed : Bool) : Unmoved (number n signed) := by unfold number; infer_instance
instance (large : Bool) : Unmoved (index large) := by unfold index; infer_instance

/-- Whatever the outcome, a cursor within its vector does not go back and stays within it. -/
class Steady (r : Reader α) : Prop where
  onward : ∀ {c : Cursor}, c.InBounds → c.Onward (c.after r)

namespace Steady

theorem of_unmoved {r : Reader α} [Local r] [Within r] [Unmoved r] : Steady r where
  onward {c} inside := by
    cases outcome : r c with
    | ok v c' =>
      obtain ⟨same, forward⟩ := Local.keeps outcome
      rw [Cursor.after_of_ok outcome]
      exact ⟨same, forward, Within.inside outcome inside⟩
    | error e c' =>
      rw [Cursor.after_of_error outcome, Unmoved.stays outcome]
      exact .refl inside

/-- A failure of the first reader is that of the sequence; the others start where it stopped. -/
theorem bind {r : Reader α} {f : α → Reader β} (_ : Steady r) (_ : ∀ a, Steady (f a)) :
    Steady (r >>= f) where
  onward {c} inside := by
    have first : c.Onward (c.after r) := Steady.onward inside
    cases outcome : r c with
    | ok a c₁ =>
      rw [Cursor.after_of_ok outcome] at first
      have whole : c.after (r >>= f) = c₁.after (f a) := by
        rw [Cursor.after, Cursor.after, bind_of_ok outcome]
      rw [whole]
      exact first.trans (Steady.onward first.inside)
    | error e c₁ =>
      rw [Cursor.after_of_error outcome] at first
      rw [Cursor.after_of_error (bind_of_error outcome)]
      exact first

end Steady

instance (a : α) : Steady (pure a : Reader α) where
  onward inside := .refl inside

instance {r : Reader α} {f : α → Reader β} [Steady r] [∀ a, Steady (f a)] : Steady (r >>= f) :=
  Steady.bind inferInstance inferInstance

instance {r : Reader α} {f : α → β} [Steady r] : Steady (f <$> r) :=
  inferInstanceAs (Steady (r >>= fun a => pure (f a)))

instance {p : Prop} [Decidable p] {r s : Reader α} [Steady r] [Steady s] :
    Steady (if p then r else s) := by split <;> infer_instance

instance (d : Defect) : Steady (malformed d : Reader α) where
  onward inside := .refl inside

instance : Steady position where
  onward inside := .refl inside

instance (n : Nat) : Steady (nat n) := .of_unmoved
instance (n : Nat) : Steady (take n) := .of_unmoved
instance (n : Nat) : Steady (ensure n) := .of_unmoved
instance (n : Nat) : Steady (advance n) := .of_unmoved
instance (unit : Nat) : Steady (align unit) := .of_unmoved
instance (n : Nat) : Steady (int n) := by unfold int; infer_instance
instance (n : Nat) (signed : Bool) : Steady (number n signed) := by unfold number; infer_instance
instance (large : Bool) : Steady (index large) := by unfold index; infer_instance
instance : Steady u8 := by unfold u8; infer_instance
instance : Steady u16 := by unfold u16; infer_instance
instance : Steady u32 := by unfold u32; infer_instance
instance : Steady u64 := by unfold u64; infer_instance

instance {r : Reader α} : Steady (peek r) where
  onward {c} inside := by
    have same : c.after (peek r) = c := by
      unfold Cursor.after peek
      cases r c <;> rfl
    rw [same]
    exact .refl inside

theorem steady_times (r : Reader α) [Steady r] (n : Nat) : Steady (times r n) := by
  induction n with
  | zero => exact inferInstanceAs (Steady (pure [] : Reader (List α)))
  | succ n ih => unfold times; infer_instance

instance {r : Reader α} [Steady r] {n : Nat} : Steady (times r n) := steady_times r n

/- The cursor goes behind the bytes before they are decoded. -/
instance : Steady Reader.text where
  onward {c} inside := by
    have moved : c.after Reader.text = { c with pos := c.data.behindText c.pos } := by
      rw [Cursor.after, text_eq]
      cases Utf8.decode (c.data.textAt c.pos) <;> rfl
    rw [moved]
    exact ⟨rfl, Bytes.le_behindText .., Bytes.behindText_le inside⟩

end Reader

instance : Steady Compressed.read := by unfold Compressed.read; infer_instance

instance : Steady Opcode.read := by
  unfold Opcode.read
  refine Steady.bind inferInstance fun offset => Steady.bind inferInstance fun first => ?_
  split
  · refine Steady.bind inferInstance fun second => ?_
    cases Opcode.escaped? second <;> infer_instance
  · cases Opcode.plain? first <;> infer_instance

instance (kind : OperandKind) : Steady (Operand.read kind) := by
  cases kind <;> unfold Operand.read <;> infer_instance

instance : Steady Instruction.read := by unfold Instruction.read; infer_instance

/-! ## Where accesses end -/

namespace Reader

variable {α : Type} {c c' : Cursor} {n : Nat}

theorem succeeds_iff_of_layout {r : Reader α} {states : Bytes → Nat → α} [FixedLayout r n states]
    (inside : c.InBounds) : (∃ v c', r c = .ok v c') ↔ c.pos + n ≤ c.data.size := by
  constructor
  · intro succeeds
    obtain ⟨v, c', h⟩ := succeeds
    exact ((FixedLayout.eq_ok inside).1 h).1
  · intro fits
    exact ⟨_, _, FixedLayout.of_fits fits⟩

theorem number_succeeds_iff {signed : Bool} (inside : c.InBounds) :
    (∃ v c', number n signed c = .ok v c') ↔ c.pos + n ≤ c.data.size := by
  cases signed
  case false =>
    exact succeeds_iff_of_layout (r := (fun value : Nat => (value : Int)) <$> nat n) inside
  case true =>
    exact succeeds_iff_of_layout (n := n + 0)
      (r := nat n >>= fun value => pure (Int.bmod value (Bytes.capacity n))) inside

/-- A number ends behind its bytes, which are its form. -/
theorem number_keeps {signed : Bool} {value : Int} (h : number n signed c = .ok value c') :
    c'.pos = c.pos + n ∧ NumberForm n signed (c.passed c') value := by
  cases signed
  case false =>
    obtain ⟨digits, field, rfl⟩ := map_eq_ok.1 h
    exact ⟨Takes.moves field, form_of_field field⟩
  case true => exact ⟨Takes.moves (r := int n) h, form_of_int h⟩

theorem index_succeeds_iff {large : Bool} (inside : c.InBounds) :
    (∃ v c', index large c = .ok v c') ↔ c.pos + Schema.width large ≤ c.data.size :=
  succeeds_iff_of_layout (n := Schema.width large + 0)
    (r := nat (Schema.width large) >>= fun value => pure (UInt32.ofNat value)) inside

theorem ensure_succeeds_iff (inside : c.InBounds) :
    (∃ v c', ensure n c = .ok v c') ↔ c.pos + n ≤ c.data.size := by
  have room := FixedLayout.le_remaining_iff (n := n) inside
  constructor
  · intro succeeds
    obtain ⟨v, c', h⟩ := succeeds
    refine room.1 (Decidable.byContradiction fun lacks => ?_)
    rw [ensure_of_lacks lacks] at h
    cases h
  · intro fits
    exact ⟨_, _, ensure_of_fits (room.2 fits)⟩

theorem peek_eq_ok {r : Reader α} {v : α} :
    peek r c = .ok v c' ↔ c' = c ∧ ∃ c₁, r c = .ok v c₁ := by
  unfold peek
  cases r c <;> simp [eq_comm, and_comm]

theorem peek_succeeds_iff {r : Reader α} :
    (∃ v c', peek r c = .ok v c') ↔ ∃ v c', r c = .ok v c' := by
  simp [peek_eq_ok]

/-- A position and what it lacks of whole units come to the next multiple. -/
theorem isLeast_multiple {unit pos : Nat} (some : 0 < unit) :
    IsLeast {stop | pos ≤ stop ∧ unit ∣ stop} (pos + (unit - pos % unit) % unit) := by
  have split := Nat.div_add_mod pos unit
  have past := Nat.mod_lt pos some
  by_cases whole : pos % unit = 0
  · rw [whole, Nat.sub_zero, Nat.mod_self, Nat.add_zero]
    exact ⟨⟨Nat.le_refl _, Nat.dvd_of_mod_eq_zero whole⟩, fun stop h => h.1⟩
  · have next : pos + (unit - pos % unit) % unit = unit * (pos / unit + 1) := by
      rw [Nat.mod_eq_of_lt (by omega), Nat.mul_succ]
      omega
    rw [next]
    refine ⟨⟨?_, Nat.dvd_mul_right ..⟩, fun stop h => ?_⟩
    · rw [Nat.mul_succ]
      omega
    · obtain ⟨behind, k, rfl⟩ := h
      -- The multiple `unit * (pos / unit)` lies below the position, so this one is a later one.
      have later : unit * (pos / unit) < unit * k := by omega
      exact Nat.mul_le_mul_left unit (Nat.lt_of_mul_lt_mul_left later)

theorem align_keeps_least {unit : Nat} (some : 0 < unit) (h : align unit c = .ok () c') :
    IsLeast {stop | c.pos ≤ stop ∧ unit ∣ stop} c'.pos := by
  rw [Takes.moves (r := advance _) h]
  exact isLeast_multiple some

theorem align_succeeds_iff {unit : Nat} (some : 0 < unit) (inside : c.InBounds) :
    (∃ v c', align unit c = .ok v c') ↔
      ∃ stop, c.pos ≤ stop ∧ stop ≤ c.data.size ∧ unit ∣ stop := by
  have least := @isLeast_multiple unit c.pos some
  refine (succeeds_iff_of_layout (r := advance _) inside).trans ?_
  constructor
  · exact fun fits => ⟨_, least.1.1, fits, least.1.2⟩
  · intro there
    obtain ⟨stop, behind, fits, multiple⟩ := there
    exact Nat.le_trans (least.2 ⟨behind, multiple⟩) fits

theorem seek_succeeds_iff {pos : Nat} : (∃ v c', seek pos c = .ok v c') ↔ pos ≤ c.data.size := by
  unfold seek
  split <;> simp_all

end Reader

/-! ## Calls -/

/-- A call of one access. To look at the next byte is `peek 1 false`. -/
inductive Access where
  | take (n : Nat)
  | seek (pos : Nat)
  | advance (n : Nat)
  | align (unit : Nat) (some : 0 < unit)
  | ensure (n : Nat)
  | peek (n : Nat) (signed : Bool)
  | number (n : Nat) (signed : Bool)
  | index (large : Bool)

namespace Access

/-- What a success answers. -/
abbrev Answer : Access → Type
  | take _ => Bytes
  | seek _ | advance _ | align .. | ensure _ => Unit
  | peek .. | number .. => Int
  | index _ => UInt32

/-- The reader of an access. -/
def run : (a : Access) → Reader a.Answer
  | take n => Reader.take n
  | seek pos => Reader.seek pos
  | advance n => Reader.advance n
  | align unit _ => Reader.align unit
  | ensure n => Reader.ensure n
  | peek n signed => Reader.peek (Reader.number n signed)
  | number n signed => Reader.number n signed
  | index large => Reader.index large

/-- What is asked for is there. -/
def Fits (c : Cursor) : Access → Prop
  | take n | advance n | ensure n | peek n _ | number n _ => c.pos + n ≤ c.data.size
  | seek pos => pos ≤ c.data.size
  | align unit _ => ∃ stop, c.pos ≤ stop ∧ stop ≤ c.data.size ∧ unit ∣ stop
  | index large => c.pos + Schema.width large ≤ c.data.size

/-- What a success comes to: where the cursor then stands, and what the answer is. -/
def Serves (c c' : Cursor) : (a : Access) → a.Answer → Prop
  | take n, part => c'.pos = c.pos + n ∧ part.toList = c.passed c'
  | seek pos, _ => c'.pos = pos
  | advance n, _ => c'.pos = c.pos + n
  | align unit _, _ => IsLeast {stop | c.pos ≤ stop ∧ unit ∣ stop} c'.pos
  | ensure _, _ => c'.pos = c.pos
  | peek n signed, value =>
    c'.pos = c.pos ∧ NumberForm n signed (c.data.extract c.pos (c.pos + n)).toList value
  | number n signed, value => c'.pos = c.pos + n ∧ NumberForm n signed (c.passed c') value
  | index large, word =>
    c'.pos = c.pos + Schema.width large ∧
      NumberForm (Schema.width large) false (c.passed c') word.toNat

variable {c c' : Cursor}

theorem succeeds_iff (a : Access) (inside : c.InBounds) :
    (∃ answer c', a.run c = .ok answer c') ↔ a.Fits c := by
  cases a with
  | take n => exact succeeds_iff_of_layout (r := Reader.take n) inside
  | seek pos => exact seek_succeeds_iff
  | advance n => exact succeeds_iff_of_layout (r := Reader.advance n) inside
  | align unit some => exact align_succeeds_iff some inside
  | ensure n => exact ensure_succeeds_iff inside
  | peek n signed => exact peek_succeeds_iff.trans (number_succeeds_iff inside)
  | number n signed => exact number_succeeds_iff inside
  | index large => exact index_succeeds_iff inside

instance (a : Access) : Unmoved a.run := by cases a <;> dsimp only [run] <;> infer_instance

theorem serves_of_ok (a : Access) {answer : a.Answer} (h : a.run c = .ok answer c') :
    a.Serves c c' answer := by
  cases a with
  | take n => exact ⟨Takes.moves (r := Reader.take n) h, passed_take h⟩
  | seek pos =>
    unfold run Reader.seek at h
    dsimp only at h
    split at h <;> cases h
    rfl
  | advance n => exact Takes.moves (r := Reader.advance n) h
  | align unit some => exact align_keeps_least some h
  | ensure n => exact congrArg Cursor.pos (ensure_keeps h)
  | peek n signed =>
    obtain ⟨rfl, c₁, number⟩ := peek_eq_ok.1 h
    obtain ⟨moved, form⟩ := number_keeps number
    rw [Cursor.passed, moved] at form
    exact ⟨rfl, form⟩
  | number n signed => exact number_keeps h
  | index large =>
    have moved := (Field.stands (r := Reader.index large) h).2.1
    exact ⟨moved ▸ rfl, form_of_field (r := Reader.index large) h⟩

end Access

/-- A call on a cursor. -/
inductive Call where
  | single (a : Access)
  | compressed
  | text
  | instruction

namespace Call

/-- What a success answers. -/
abbrev Answer : Call → Type
  | single a => a.Answer
  | compressed => Nat
  | text => String
  | instruction => Instruction

/-- The reader of a call. -/
def run : (call : Call) → Reader call.Answer
  | single a => a.run
  | compressed => Compressed.read
  | text => Reader.text
  | instruction => Instruction.read

/-- What a success comes to. Behind a text a zero byte is passed over, if there is one. -/
def Serves (c c' : Cursor) : (call : Call) → call.Answer → Prop
  | single a, answer => a.Serves c c' answer
  | compressed, n => Compressed.Form (c.passed c') n
  | text, content =>
    0 ∉ Utf8.encode content ∧
      (c.passed c' = Utf8.encode content ++ [0] ∨
        c'.pos = c.data.size ∧ c.passed c' = Utf8.encode content)
  | instruction, i => i.offset = c.pos ∧ c'.pos = i.stop ∧ Instruction.Form (c.passed c') i

variable {c c' : Cursor}

/-- Whatever its outcome, a call other than `seek` goes on in the vector. -/
theorem onward (call : Call) (other : ∀ pos, call ≠ single (.seek pos)) (inside : c.InBounds) :
    c.Onward (c.after call.run) := by
  have steady : Steady call.run := by
    cases call with
    | single a =>
      cases a with
      | seek pos => exact absurd rfl (other pos)
      | _ => dsimp only [run, Access.run]; infer_instance
    | _ => dsimp only [run]; infer_instance
  exact steady.onward inside

theorem serves_of_ok (call : Call) {answer : call.Answer} (h : call.run c = .ok answer c')
    (inside : c.InBounds) : call.Serves c c' answer := by
  cases call with
  | single a => exact a.serves_of_ok h
  | compressed => exact Compressed.form_of_read h
  | text => exact passed_text h inside
  | instruction => exact Instruction.form_of_read h

end Call

namespace Cursor

variable {c : Cursor} {data : Bytes}

/-- The cursor that a sequence of calls leaves. -/
def afterCalls (c : Cursor) (calls : List Call) : Cursor :=
  calls.foldl (fun c call => c.after call.run) c

theorem after_seek (pos : Nat) (inside : c.InBounds) :
    (c.after (Reader.seek pos)).data = c.data ∧ (c.after (Reader.seek pos)).InBounds := by
  unfold after Reader.seek
  split
  next h =>
    split at h <;> cases h
    next there => exact ⟨rfl, there⟩
  next h =>
    split at h <;> cases h
    exact ⟨rfl, inside⟩

/-- One call, which may be `seek`. -/
theorem after_inBounds (call : Call) (inside : c.InBounds) :
    (c.after call.run).data = c.data ∧ (c.after call.run).InBounds := by
  by_cases sought : ∃ pos, call = .single (.seek pos)
  · obtain ⟨pos, rfl⟩ := sought
    exact after_seek pos inside
  · have onward := call.onward (not_exists.1 sought) inside
    exact ⟨onward.data_eq, onward.inside⟩

/-- A whole sequence, by what one call keeps. -/
theorem afterCalls_inBounds (calls : List Call) (inside : c.InBounds) :
    (c.afterCalls calls).data = c.data ∧ (c.afterCalls calls).InBounds := by
  induction calls generalizing c with
  | nil => exact ⟨rfl, inside⟩
  | cons call calls ih =>
    obtain ⟨same, inside'⟩ := after_inBounds call inside
    obtain ⟨data, within⟩ := ih inside'
    exact ⟨data.trans same, within⟩

/--
**A cursor stays within its vector under every sequence of calls.** After calls that
succeed or fail in any order, the position does not lie behind the end, and with the bytes
that remain it comes to the size of the vector. The next call goes back only if it is `seek`.
A call of one access succeeds exactly if what it asks for is there, and leaves the cursor as
it was if it fails. A call that succeeds has passed over the bytes that its answer states.
-/
theorem calls_stay_within (data : Bytes) (calls : List Call) :
    let c := (start data).afterCalls calls
    c.data = data ∧ c.pos ≤ data.size ∧ c.pos + c.remaining = data.size ∧
    (∀ call : Call, (c.after call.run).pos < c.pos → ∃ pos, call = .single (.seek pos)) ∧
    (∀ a : Access, ((∃ answer c', a.run c = .ok answer c') ↔ a.Fits c) ∧
      ∀ e c', a.run c = .error e c' → c' = c) ∧
    ∀ (call : Call) (answer : call.Answer) (c' : Cursor), call.run c = .ok answer c' →
      call.Serves c c' answer := by
  intro c
  obtain ⟨same, inside⟩ := afterCalls_inBounds calls (inBounds_start data)
  have within : c.pos ≤ data.size := by
    rw [← show c.data = data from same]
    exact inside
  refine ⟨same, within, ?_, fun call back => ?_, fun a => ⟨a.succeeds_iff inside, fun e c' =>
    Unmoved.stays⟩, fun call answer c' h => call.serves_of_ok h inside⟩
  · rw [remaining, show c.data = data from same]
    omega
  · by_contra other
    exact Nat.not_le_of_lt back (call.onward (not_exists.1 other) inside).forward

/-- A return, a string load, a byte that begins no number, a text with its zero byte, one more. -/
def mixedBytes : Bytes := #[0x2A, 0x72, 0x01, 0x00, 0x00, 0x70, 0xE0, 0x41, 0x00, 0x05]

/-- Calls of which the first, the fourth and the sixth fail, the fourth behind its first byte. -/
def mixedCalls : List Call :=
  [.single (.take 100), .single (.number 1 false), .instruction, .compressed, .text,
    .single (.align 4 (by decide))]

theorem calls_stay_within_mixed :
    (start mixedBytes).afterCalls mixedCalls = ⟨mixedBytes, 9⟩ ∧
    9 + remaining ⟨mixedBytes, 9⟩ = 10 ∧
    (∃ e, Reader.take 2 ⟨mixedBytes, 9⟩ = .error e ⟨mixedBytes, 9⟩) ∧
    (start mixedBytes).afterCalls (mixedCalls ++ [.single (.seek 1)]) = ⟨mixedBytes, 1⟩ ∧
    Reader.align 4 ⟨mixedBytes, 1⟩ = .ok () ⟨mixedBytes, 4⟩ ∧
    IsLeast {stop | 1 ≤ stop ∧ 4 ∣ stop} 4 ∧
    Instruction.read ⟨mixedBytes, 1⟩ =
      .ok ⟨1, 5, ⟨false, 0x72, "ldstr", .token⟩, .token ⟨0x70000001⟩⟩ ⟨mixedBytes, 6⟩ ∧
    Instruction.Form [0x72, 0x01, 0x00, 0x00, 0x70]
      ⟨1, 5, ⟨false, 0x72, "ldstr", .token⟩, .token ⟨0x70000001⟩⟩ := by
  have stand : (start mixedBytes).afterCalls mixedCalls = ⟨mixedBytes, 9⟩ ∧
      (start mixedBytes).afterCalls (mixedCalls ++ [.single (.seek 1)]) = ⟨mixedBytes, 1⟩ := by
    decide +kernel
  have aligned : Reader.align 4 ⟨mixedBytes, 1⟩ = .ok () ⟨mixedBytes, 4⟩ := by rfl
  have first : Reader.u8 ⟨mixedBytes, 1⟩ = .ok Opcode.loadString ⟨mixedBytes, 2⟩ := by rfl
  have opcode := Opcode.read_of_lookup_some first (Opcode.lookup_loadString _)
  have token : Operand.read .token ⟨mixedBytes, 2⟩ =
      .ok (.token ⟨0x70000001⟩) ⟨mixedBytes, 6⟩ := by rfl
  have load := Instruction.read_of_operand opcode token
  obtain ⟨-, -, whole, -, single, -⟩ := calls_stay_within mixedBytes mixedCalls
  obtain ⟨-, -, -, -, -, served⟩ :=
    calls_stay_within mixedBytes (mixedCalls ++ [.single (.seek 1)])
  rw [stand.1] at whole single
  rw [stand.2] at served
  have lacks : ¬ (Access.take 2).Fits ⟨mixedBytes, 9⟩ := by
    show ¬ 9 + 2 ≤ 10
    decide
  refine ⟨stand.1, whole, ?_, stand.2, aligned,
    served (.single (.align 4 (by decide))) _ _ aligned, load, (served .instruction _ _ load).2.2⟩
  cases taken : Reader.take 2 ⟨mixedBytes, 9⟩ with
  | ok part c' => exact absurd ((single (.take 2)).1.1 ⟨part, c', taken⟩) lacks
  | error e c' => exact ⟨e, by rw [(single (.take 2)).2 e c' taken]⟩

end Cursor

end ManagedImage
