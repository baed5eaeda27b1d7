/-
The operations of a machine with 64-bit addresses. On the machine every number
has a width and every access is made without a further question, so an operation
may break off the whole run: a result that does not fit, a difference below zero,
a shift by the width or more, a division by zero, a part or an item that is not
there, an assertion that does not hold. A refusal of the input is no such break
but one of the answers of a program.

The definitions that run compute with numbers of any size and never break off.
`Run.of` is such a computation seen as a run; for each operation there is a lemma
that says when it answers what it does without a width.
-/
import Mathlib.Algebra.Group.Nat.Defs
import ManagedImage.Cursor

namespace ManagedImage.Machine

variable {α β : Type}

/-- How a run ends without an answer. -/
inductive Fault where
  /-- An operation broke the run off. -/
  | abort
  /-- The program refused its input. -/
  | refused (error : Error)
deriving DecidableEq, Repr

/-- A run of a program. -/
abbrev Run := Except Fault

/-- Ends a run by a refusal. -/
def refuse (error : Error) : Run α := .error (.refused error)

/-- A computation without widths, which never breaks off. -/
def Run.of (x : Except Error α) : Run α := x.mapError .refused

@[simp] theorem Run.of_ok (a : α) : Run.of (.ok a) = .ok a := rfl

theorem Run.of_ne_abort (x : Except Error α) : Run.of x ≠ .error .abort := by
  cases x <;> exact nofun

@[simp] theorem ok_bind (a : α) (f : α → Run β) : ((.ok a : Run α) >>= f) = f a := rfl

/-- Two runs one behind the other, where the second needs only follow the answers of the first. -/
theorem Run.bind_of {p : Run α} {q : α → Run β} {x : Except Error α} {f : α → Except Error β}
    (first : p = Run.of x) (second : ∀ a, x = .ok a → q a = Run.of (f a)) :
    (p >>= q) = Run.of (x >>= f) := by
  subst first
  cases x with
  | error e => rfl
  | ok a => exact second a rfl

theorem Run.mapM_of {p : α → Run β} {f : α → Except Error β} {l : List α}
    (each : ∀ a ∈ l, p a = Run.of (f a)) : l.mapM p = Run.of (l.mapM f) := by
  induction l with
  | nil => rfl
  | cons a l ih =>
    rw [List.mapM_cons, List.mapM_cons]
    refine Run.bind_of (each a List.mem_cons_self) fun b _ => ?_
    exact Run.bind_of (ih fun a mem => each a (List.mem_cons_of_mem _ mem)) fun _ _ => rfl

theorem mapM_ok {p : α → Run β} {f : α → β} {l : List α} (each : ∀ a ∈ l, p a = .ok (f a)) :
    l.mapM p = .ok (l.map f) := by
  induction l with
  | nil => rfl
  | cons a l ih =>
    rw [List.mapM_cons, each a List.mem_cons_self, ok_bind,
      ih fun a mem => each a (List.mem_cons_of_mem _ mem)]
    rfl

/-- A refusal as an answer of its own, which a caller may go on from; a break stays one. -/
def attempt : Run α → Run (Except Error α)
  | .ok a => .ok (.ok a)
  | .error (.refused e) => .ok (.error e)
  | .error .abort => .error .abort

@[simp] theorem attempt_of (x : Except Error α) : attempt (Run.of x) = .ok x := by
  cases x <;> rfl

/-! ## Arithmetic -/

/-- A number in `w` bits. -/
def word (w n : Nat) : Run Nat := if n < 2 ^ w then .ok n else .error .abort

/-- A sum in `w` bits. -/
def add (w a b : Nat) : Run Nat := word w (a + b)

/-- A product in `w` bits. -/
def mul (w a b : Nat) : Run Nat := word w (a * b)

/-- A difference, whatever the width. -/
def sub (a b : Nat) : Run Nat := if b ≤ a then .ok (a - b) else .error .abort

/-- A remainder. -/
def rem (a b : Nat) : Run Nat := if b = 0 then .error .abort else .ok (a % b)

/-- A number of `w` bits moved up; the bits that are moved out are lost. -/
def shiftUp (w a k : Nat) : Run Nat := if k < w then .ok ((a <<< k) % 2 ^ w) else .error .abort

/-- A number of `w` bits moved down. -/
def shiftDown (w a k : Nat) : Run Nat := if k < w then .ok (a >>> k) else .error .abort

/-- A number if `w` bits can hold it: the outcome of an operation that is tested before its use. -/
def checked (w n : Nat) : Option Nat := if n < 2 ^ w then some n else none

/-- A sum that stops at the largest number of `w` bits. -/
def saturating (w a b : Nat) : Nat := min (a + b) (2 ^ w - 1)

section Arithmetic

variable {w a b k : Nat}

theorem word_eq (fits : a < 2 ^ w) : word w a = .ok a := if_pos fits

theorem add_eq (fits : a + b < 2 ^ w) : add w a b = .ok (a + b) := word_eq fits

theorem mul_eq (fits : a * b < 2 ^ w) : mul w a b = .ok (a * b) := word_eq fits

theorem sub_eq (le : b ≤ a) : sub a b = .ok (a - b) := if_pos le

theorem rem_eq (some : b ≠ 0) : rem a b = .ok (a % b) := if_neg some

theorem shiftUp_eq (less : k < w) (fits : a <<< k < 2 ^ w) : shiftUp w a k = .ok (a <<< k) := by
  rw [shiftUp, if_pos less, Nat.mod_eq_of_lt fits]

theorem shiftDown_eq (less : k < w) : shiftDown w a k = .ok (a >>> k) := if_pos less

theorem checked_eq (fits : a < 2 ^ w) : checked w a = some a := if_pos fits

theorem saturating_eq (fits : a + b < 2 ^ w) : saturating w a b = a + b :=
  Nat.min_eq_left (Nat.le_sub_one_of_lt fits)

end Arithmetic

/-! ## Accesses -/

/-- The bytes of a vector between two positions. -/
def cut (data : Bytes) (start stop : Nat) : Run Bytes :=
  if start ≤ stop ∧ stop ≤ data.size then .ok (data.extract start stop) else .error .abort

/-- The item of a list at a place. -/
def fetch (items : List α) (place : Nat) : Run α :=
  match items[place]? with
  | some a => .ok a
  | none => .error .abort

/-- An assertion of the program about itself. -/
def demand (p : Prop) [Decidable p] : Run Unit := if p then .ok () else .error .abort

theorem cut_eq {data : Bytes} {start stop : Nat} (order : start ≤ stop) (inside : stop ≤ data.size) :
    cut data start stop = .ok (data.extract start stop) := if_pos ⟨order, inside⟩

theorem fetch_eq {items : List α} {place : Nat} {a : α} (there : items[place]? = some a) :
    fetch items place = .ok a := by rw [fetch, there]

theorem demand_eq {p : Prop} [Decidable p] (holds : p) : demand p = .ok () := if_pos holds

example : sub 0 1 = .error .abort := rfl
example : add 32 0xFFFFFFFF 1 = .error .abort := rfl
example : cut #[1, 2] 1 3 = .error .abort := rfl

/-! ## Parts of a file -/

/-- A part of a file, which is asked for by a caller and hence tested first. -/
def slice (data : Bytes) (offset length : Nat) : Run Bytes :=
  match (checked 64 (offset + length)).filter (· ≤ data.size) with
  | some stop => cut data offset stop
  | none => refuse (.outOfBounds offset length data.size)

/-- A sum that is compared with the size of a vector is as good as tested for overflow. -/
theorem filter_checked {n size : Nat} (short : size < 2 ^ 63) :
    (checked 64 n).filter (· ≤ size) = if n ≤ size then some n else none := by
  by_cases fits : n ≤ size
  · rw [checked_eq (by omega), if_pos fits, Option.filter_some, if_pos (by simpa using fits)]
  · rw [if_neg fits, checked]
    split
    · rw [Option.filter_some, if_neg (by simpa using fits)]
    · rfl

theorem slice_eq {data : Bytes} (short : data.size < 2 ^ 63) (offset length : Nat) :
    slice data offset length = Run.of (data.slice offset length) := by
  rw [slice, filter_checked short, Bytes.slice]
  by_cases fits : offset + length ≤ data.size
  · rw [if_pos fits, if_pos fits]
    exact cut_eq (Nat.le_add_right ..) fits
  · rw [if_neg fits, if_neg fits]
    rfl

end ManagedImage.Machine
