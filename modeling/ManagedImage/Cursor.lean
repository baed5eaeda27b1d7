/-
Direct and sequential reading. `Bytes.slice` cuts a part out of a byte vector. A
cursor is a byte vector and a position; a reader moves the cursor and answers a
value or an error, and keeps the cursor where it stopped even when it fails.
Every access is checked against the length of the vector.

Main statements: each operation keeps a cursor that stands within its vector
there and never touches the vector (`ensure_keeps`, `advance_keeps`,
`take_keeps`, `nat_keeps`, `align_keeps`); an error of these leaves the position
as it was, which the definitions show.
-/
import ManagedImage.Error

namespace ManagedImage

/-- A byte vector and the position of the next byte to read. -/
structure Cursor where
  data : Bytes
  pos : Nat
deriving DecidableEq

namespace Cursor

/-- The count of bytes from the position to the end. -/
def remaining (c : Cursor) : Nat := c.data.size - c.pos

/-- Whether there is another byte. -/
def hasMore (c : Cursor) : Bool := c.pos < c.data.size

/-- The position does not lie past the end. -/
def InBounds (c : Cursor) : Prop := c.pos ≤ c.data.size

/-- The cursor at the start of a vector. -/
def start (data : Bytes) : Cursor := ⟨data, 0⟩

theorem inBounds_start (data : Bytes) : (start data).InBounds := Nat.zero_le _

end Cursor

/-- The `length` bytes of a vector from `offset` on. -/
def Bytes.slice (data : Bytes) (offset length : Nat) : Except Error Bytes :=
  if offset + length ≤ data.size then .ok (data.extract offset (offset + length))
  else .error (.outOfBounds offset length data.size)

theorem Bytes.slice_eq_ok {data part : Bytes} {offset length : Nat} :
    data.slice offset length = .ok part ↔
      offset + length ≤ data.size ∧ part = data.extract offset (offset + length) := by
  by_cases fits : offset + length ≤ data.size
  · rw [slice, if_pos fits, Except.ok.injEq]; exact ⟨fun h => ⟨fits, h.symm⟩, fun h => h.2.symm⟩
  · rw [slice, if_neg fits]; exact ⟨nofun, fun h => absurd h.1 fits⟩

/-- An action on a cursor that may fail. -/
abbrev Reader := EStateM Error Cursor

namespace Reader

/-- Reads `data` from `pos` on. -/
def runAt {α : Type} (r : Reader α) (data : Bytes) (pos : Nat) : Except Error α :=
  match r ⟨data, pos⟩ with
  | .ok value _ => .ok value
  | .error error _ => .error error

/-- Reads `data` from its start. -/
def run {α : Type} (r : Reader α) (data : Bytes) : Except Error α := r.runAt data 0

/-- Fails with a breach of the format. -/
def malformed {α : Type} (defect : Defect) : Reader α := throw (.malformed defect)

/-- Answers what was worked out elsewhere; the cursor stays. -/
def ofExcept {α : Type} (result : Except Error α) : Reader α := fun c =>
  match result with
  | .ok value => .ok value c
  | .error error => .error error c

/-- The current position. -/
def position : Reader Nat := fun c => .ok c.pos c

/-- Goes to any position up to the end. -/
def seek (pos : Nat) : Reader Unit := fun c =>
  if pos ≤ c.data.size then .ok () { c with pos }
  else .error (.outOfBounds pos 0 c.data.size) c

/-- Demands `n` more bytes without reading them. -/
def ensure (n : Nat) : Reader Unit := fun c =>
  if n ≤ c.remaining then .ok () c else .error (.outOfBounds c.pos n c.data.size) c

/-- Passes over `n` bytes. -/
def advance (n : Nat) : Reader Unit := fun c =>
  if n ≤ c.remaining then .ok () { c with pos := c.pos + n }
  else .error (.outOfBounds c.pos n c.data.size) c

/-- Passes over the bytes up to the next multiple of `unit`. -/
def align (unit : Nat) : Reader Unit := fun c => advance ((unit - c.pos % unit) % unit) c

/-- The next `n` bytes. -/
def take (n : Nat) : Reader Bytes := fun c =>
  if n ≤ c.remaining then .ok (c.data.extract c.pos (c.pos + n)) { c with pos := c.pos + n }
  else .error (.outOfBounds c.pos n c.data.size) c

/-- The little-endian number in the next `n` bytes. -/
def nat (n : Nat) : Reader Nat := fun c =>
  if c.pos + n ≤ c.data.size then .ok (c.data.leNat c.pos n) { c with pos := c.pos + n }
  else .error (.outOfBounds c.pos n c.data.size) c

/-- What a reader would answer, from where the cursor stays. -/
def peek {α : Type} (r : Reader α) : Reader α := fun c =>
  match r c with
  | .ok value _ => .ok value c
  | .error error _ => .error error c

/-- The little-endian number in two's complement in the next `n` bytes. -/
def int (n : Nat) : Reader Int := return Int.bmod (← nat n) (Bytes.capacity n)

/-- The next byte. -/
def u8 : Reader UInt8 := return UInt8.ofNat (← nat 1)

/-- The next two bytes as a number. -/
def u16 : Reader UInt16 := return UInt16.ofNat (← nat 2)

/-- The next four bytes as a number. -/
def u32 : Reader UInt32 := return UInt32.ofNat (← nat 4)

/-- The next eight bytes as a number. -/
def u64 : Reader UInt64 := return UInt64.ofNat (← nat 8)

/-- A table or heap index: four bytes for a large target, two for any other. -/
def index (large : Bool) : Reader UInt32 := return UInt32.ofNat (← nat (if large then 4 else 2))

/--
The text up to the next zero byte, which is passed over, or up to the end. The
cursor moves even if the bytes are not UTF-8.
-/
def text : Reader String := fun c =>
  let bytes := Bytes.upToNul (c.data.extract c.pos c.data.size)
  let stop := c.pos + bytes.size
  let after := { c with pos := if stop < c.data.size then stop + 1 else stop }
  match Utf8.decode bytes with
  | .ok text => .ok text after
  | .error fault => .error (.malformed (.text c.pos stop fault)) after

/-- Repeats a reader `n` times. -/
def times {α : Type} (r : Reader α) : Nat → Reader (List α)
  | 0 => pure []
  | n + 1 => return (← r) :: (← times r n)

/-- Repeats a reader, at most `fuel` times, while there are bytes left. -/
def collect {α : Type} (r : Reader α) : Nat → Array α → Reader (Array α)
  | 0, seen => pure seen
  | fuel + 1, seen => do
    if (← get).hasMore then collect r fuel (seen.push (← r)) else pure seen

/-- Repeats a reader up to the end. Each round must pass over a byte or fail. -/
def untilEnd {α : Type} (r : Reader α) : Reader (List α) := do
  return (← collect r (← get).remaining #[]).toList

section Lemmas

variable {c c' : Cursor}

theorem ensure_keeps {n : Nat} (h : ensure n c = .ok () c') : c' = c := by
  unfold ensure at h; split at h <;> simp_all

theorem advance_keeps {n : Nat} (h : advance n c = .ok () c') :
    n ≤ c.remaining ∧ c' = { c with pos := c.pos + n } := by
  unfold advance at h; split at h <;> simp_all

theorem take_keeps {n : Nat} {bytes : Bytes} (h : take n c = .ok bytes c') :
    n ≤ c.remaining ∧ bytes = c.data.extract c.pos (c.pos + n) ∧
      c' = { c with pos := c.pos + n } := by
  unfold take at h; split at h <;> simp_all

theorem nat_keeps {n value : Nat} (h : nat n c = .ok value c') :
    c.pos + n ≤ c.data.size ∧ value = c.data.leNat c.pos n ∧
      c' = { c with pos := c.pos + n } := by
  unfold nat at h; split at h <;> simp_all

theorem align_keeps {unit : Nat} (h : align unit c = .ok () c') :
    c'.data = c.data ∧ c.pos ≤ c'.pos := by
  obtain ⟨-, rfl⟩ := advance_keeps h; simp

end Lemmas

end Reader

end ManagedImage
