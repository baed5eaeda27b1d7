/-
Text held as UTF-8. `decode?` gives the text of well-formed bytes; `fault?`
says where ill-formed bytes go wrong: the length of the longest well-formed
part in front, and how many bytes of the broken sequence were still right, or
that the bytes end inside a sequence.

The ranges of the second byte after `E0`, `ED`, `F0` and `F4` shut out
overlong forms, surrogates and numbers above `10FFFF`.

Main statement: the bytes in front of a fault have none (`front_of_fault?`).
-/
import ManagedImage.Bytes

namespace ManagedImage.Utf8

/-- The text of well-formed bytes. -/
def decode? (data : Bytes) : Option String := String.fromUTF8? ⟨data⟩

/-- The bytes of a text. -/
def encode (text : String) : List UInt8 := text.toUTF8.data.toList

/-- Why bytes are not UTF-8 text; `index` is the length of the well-formed part in front. -/
inductive Fault where
  /-- The bytes end inside a sequence. -/
  | incomplete (index : Nat)
  /-- A sequence breaks after `right` bytes that could have begun one. -/
  | invalid (right index : Nat)
deriving DecidableEq, Repr

/-- The wording of a fault. -/
def Fault.message : Fault → String
  | .incomplete index => s!"incomplete utf-8 byte sequence from index {index}"
  | .invalid right index => s!"invalid utf-8 sequence of {right} bytes from index {index}"

/-- The ranges in which the bytes after `lead` must lie; none for a byte that begins no sequence. -/
def continuation (lead : UInt8) : Option (List (UInt8 × UInt8)) :=
  if lead < 0x80 then some []
  else if lead < 0xC2 then none
  else if lead < 0xE0 then some [(0x80, 0xBF)]
  else if lead = 0xE0 then some [(0xA0, 0xBF), (0x80, 0xBF)]
  else if lead = 0xED then some [(0x80, 0x9F), (0x80, 0xBF)]
  else if lead < 0xF0 then some [(0x80, 0xBF), (0x80, 0xBF)]
  else if lead = 0xF0 then some [(0x90, 0xBF), (0x80, 0xBF), (0x80, 0xBF)]
  else if lead < 0xF4 then some [(0x80, 0xBF), (0x80, 0xBF), (0x80, 0xBF)]
  else if lead = 0xF4 then some [(0x80, 0x8F), (0x80, 0xBF), (0x80, 0xBF)]
  else none

/--
The first fault of `bytes`, which follow the first `seen` bytes of the sequence
begun at `start`; `pending` are the ranges of the bytes that sequence still lacks.
-/
def faultFrom (start seen : Nat) (pending : List (UInt8 × UInt8)) : List UInt8 → Option Fault
  | [] => if pending.isEmpty then none else some (.incomplete start)
  | byte :: rest =>
    match pending with
    | [] =>
      match continuation byte with
      | none => some (.invalid 1 (start + seen))
      | some ranges => faultFrom (start + seen) 1 ranges rest
    | (low, high) :: ranges =>
      if low ≤ byte ∧ byte ≤ high then faultFrom start (seen + 1) ranges rest
      else some (.invalid seen start)

/-- The first fault of `data`, if it has one. -/
def fault? (data : Bytes) : Option Fault := faultFrom 0 0 [] data.toList

/-- The text of the bytes, or their first fault. -/
def decode (data : Bytes) : Except Fault String :=
  match decode? data with
  | some text => .ok text
  | none => .error ((fault? data).getD (.incomplete data.size))

/-- The length of the well-formed part in front. -/
def Fault.index : Fault → Nat
  | .incomplete index | .invalid _ index => index

/--
A fault lies in the sequence that was begun at `start` or in a later one. In front of the later one
the bytes have no fault.
-/
theorem front_of_faultFrom {start seen : Nat} {pending : List (UInt8 × UInt8)} {l : List UInt8}
    {f : Fault} (h : faultFrom start seen pending l = some f) :
    pending ≠ [] ∧ f.index = start ∨
      start + seen ≤ f.index ∧ f.index < start + seen + l.length ∧
        faultFrom start seen pending (l.take (f.index - (start + seen))) = none := by
  induction l generalizing start seen pending with
  | nil =>
    cases pending with
    | nil => cases h
    | cons range ranges => cases h; exact .inl ⟨List.cons_ne_nil _ _, rfl⟩
  | cons byte rest ih =>
    cases pending with
    | nil =>
      refine .inr ?_
      rw [faultFrom] at h
      split at h
      next =>
        cases h
        simp [Fault.index, faultFrom]
      next ranges begins =>
        rcases ih h with ⟨-, here⟩ | ⟨low, high, front⟩
        · simp [here, faultFrom]
        · refine ⟨by omega, by rw [List.length_cons]; omega, ?_⟩
          rw [show f.index - (start + seen) = f.index - (start + seen + 1) + 1 by omega,
            List.take_succ_cons, faultFrom, begins]
          exact front
    | cons range ranges =>
      rw [faultFrom] at h
      split at h
      next inside =>
        rcases ih h with ⟨-, here⟩ | ⟨low, high, front⟩
        · exact .inl ⟨List.cons_ne_nil _ _, here⟩
        · refine .inr ⟨by omega, by rw [List.length_cons]; omega, ?_⟩
          rw [show f.index - (start + seen) = f.index - (start + (seen + 1)) + 1 by omega,
            List.take_succ_cons, faultFrom, if_pos inside]
          exact front
      next => cases h; exact .inl ⟨List.cons_ne_nil _ _, rfl⟩

/-- The part in front of a fault is shorter than the bytes, and has no fault. -/
theorem front_of_fault? {data : Bytes} {f : Fault} (h : fault? data = some f) :
    f.index < data.size ∧ fault? (data.extract 0 f.index) = none := by
  rcases front_of_faultFrom h with ⟨some, -⟩ | ⟨-, inside, front⟩
  · exact absurd rfl some
  · simp only [Nat.zero_add, Nat.sub_zero] at inside front
    rw [fault?, Array.toList_extract, List.extract_eq_take_drop]
    exact ⟨inside, front⟩

example : fault? #[0xC3, 0xA9, 0xED, 0xA0, 0x80] = some (.invalid 1 2) := by decide

end ManagedImage.Utf8
