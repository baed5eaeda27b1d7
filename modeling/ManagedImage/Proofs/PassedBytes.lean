/-
The bytes that a success passes over. They stand between the two positions of the cursor
(`Cursor.passed`), and those of one reader behind another are the bytes of the first and
then those of the second (`Reader.passed_bind`). The answer is what these bytes state, all
of them and no other: a number its digits (`NumberForm`), a text its letters and the zero
byte behind them, an instruction its opcode and its operand (`Instruction.Form`).

A `switch` has as many distances as it states, so its bytes are a count and then one field
for each distance.

Main statements: `Reader.passed_text`, `Instruction.form_of_read`.
-/
import Mathlib.Data.List.Forall2
import ManagedImage.Proofs.CompressedForms
import ManagedImage.Proofs.InstructionSplit
import ManagedImage.Proofs.RootForms
import ManagedImage.Proofs.RowForms

namespace ManagedImage

open Reader

/-! ## Bytes between two positions -/

namespace Cursor

/-- The bytes from the position of one cursor up to that of another one. -/
def passed (c c' : Cursor) : List UInt8 := (c.data.extract c.pos c'.pos).toList

variable {c c₁ c' : Cursor}

@[simp] theorem passed_self (c : Cursor) : c.passed c = [] := by simp [passed]

theorem passed_append (same : c₁.data = c.data) (first : c.pos ≤ c₁.pos) (later : c₁.pos ≤ c'.pos) :
    c.passed c₁ ++ c₁.passed c' = c.passed c' := by
  simp only [passed, same]
  rw [← Array.toList_append, Array.extract_append_extract, Nat.min_eq_left first,
    Nat.max_eq_right later]

end Cursor

namespace Reader

variable {α β : Type} {c c' : Cursor} {n : Nat}

/-- A sequence passes over the bytes of its first reader and then over those of the others. -/
theorem passed_bind {r : Reader α} {f : α → Reader β} [Local r] [∀ a, Local (f a)] {v : β}
    (h : (r >>= f) c = .ok v c') :
    ∃ a c₁, r c = .ok a c₁ ∧ f a c₁ = .ok v c' ∧ c.passed c' = c.passed c₁ ++ c₁.passed c' := by
  obtain ⟨a, c₁, first, later⟩ := bind_eq_ok.1 h
  obtain ⟨same, forward⟩ := Local.keeps first
  exact ⟨a, c₁, first, later, (Cursor.passed_append same forward (Local.keeps later).2).symm⟩

/-- A repeated reader passes over the fields of its items. -/
theorem passed_times {r : Reader α} [Local r] {form : List UInt8 → α → Prop}
    (each : ∀ {c c' : Cursor} {v : α}, r c = .ok v c' → form (c.passed c') v) {l : List α}
    (h : times r n c = .ok l c') :
    ∃ fields, List.Forall₂ form fields l ∧ c.passed c' = fields.flatten := by
  induction n generalizing c l with
  | zero =>
    obtain ⟨rfl, rfl⟩ := pure_eq_ok.1 h
    exact ⟨[], .nil, by simp⟩
  | succ n ih =>
    obtain ⟨v, c₁, first, h, front⟩ := passed_bind h
    obtain ⟨later, c₂, rest, h⟩ := bind_eq_ok.1 h
    obtain ⟨rfl, rfl⟩ := pure_eq_ok.1 h
    obtain ⟨fields, all, behind⟩ := ih rest
    exact ⟨c.passed c₁ :: fields, .cons (each first) all, by rw [front, behind, List.flatten_cons]⟩

end Reader

/-! ## Numbers -/

/-- The bytes of a number, the lowest first. A signed number stands in two's complement. -/
inductive NumberForm (n : Nat) : Bool → List UInt8 → Int → Prop
  | unsigned {value : Nat} (small : value < Bytes.capacity n) :
      NumberForm n false (Bytes.leBytes n value) value
  | signed {value : Int} (low : -(Bytes.capacity n : Int) ≤ 2 * value)
      (high : 2 * value < Bytes.capacity n) :
      NumberForm n true (Bytes.leBytes n (value % Bytes.capacity n).toNat) value

/-- The number of lowest digits `m` that is nearest to zero, in two's complement. -/
theorem numberForm_bmod {n m : Nat} (small : m < Bytes.capacity n) :
    NumberForm n true (Bytes.leBytes n m) (Int.bmod m (Bytes.capacity n)) := by
  have some : 0 < Bytes.capacity n := Nat.lt_of_le_of_lt (Nat.zero_le m) small
  have low := @Int.le_bmod m (Bytes.capacity n) some
  have high := @Int.bmod_lt m (Bytes.capacity n) some
  have digits : (Int.bmod m (Bytes.capacity n) % Bytes.capacity n).toNat = m := by
    rw [Int.bmod_emod, Int.emod_eq_of_lt (by omega) (by omega), Int.toNat_natCast]
  have form := @NumberForm.signed n (Int.bmod m (Bytes.capacity n)) (by omega) (by omega)
  rwa [digits] at form

namespace Reader

variable {α : Type} {c c' : Cursor} {n : Nat}

instance (n : Nat) : Field (nat n) id n where
  stands h := by
    obtain ⟨fits, rfl, moved⟩ := nat_keeps h
    exact ⟨fits, moved, rfl⟩

instance : Field u8 UInt8.toNat 1 := .of_nat fun _ => UInt8.toNat_ofNat_of_lt

instance : Field u64 UInt64.toNat 8 := .of_nat fun _ => UInt64.toNat_ofNat_of_lt

theorem passed_field {r : Reader α} {number : α → Nat} [Field r number n] {v : α}
    (h : r c = .ok v c') :
    c.passed c' = Bytes.leBytes n (number v) ∧ number v < Bytes.capacity n := by
  obtain ⟨fits, rfl, value⟩ := Field.stands h
  rw [value]
  exact ⟨(Bytes.leBytes_leNat fits).symm, Bytes.leNat_lt ..⟩

theorem form_of_field {r : Reader α} {number : α → Nat} [Field r number n] {v : α}
    (h : r c = .ok v c') : NumberForm n false (c.passed c') (number v) := by
  obtain ⟨digits, small⟩ := passed_field h
  rw [digits]
  exact .unsigned small

theorem form_of_int {value : Int} (h : int n c = .ok value c') :
    NumberForm n true (c.passed c') value := by
  obtain ⟨m, c₁, field, answer⟩ := bind_eq_ok.1 h
  obtain ⟨rfl, rfl⟩ := pure_eq_ok.1 answer
  obtain ⟨digits, small⟩ := passed_field field
  rw [digits]
  exact numberForm_bmod small

theorem passed_u8 {byte : UInt8} (h : u8 c = .ok byte c') : c.passed c' = [byte] := by
  have digits := (passed_field h).1
  rwa [Bytes.leBytes, Bytes.leBytes, Nat.mod_eq_of_lt byte.toNat_lt, UInt8.ofNat_toNat] at digits

theorem passed_take {part : Bytes} (h : take n c = .ok part c') : part.toList = c.passed c' := by
  obtain ⟨-, rfl, rfl⟩ := take_keeps h
  rfl

end Reader

/-! ## Texts -/

theorem Utf8.decode_eq_ok {data : Bytes} {text : String} (h : decode data = .ok text) :
    data.toList = encode text := by
  unfold decode at h
  split at h
  case h_1 found known =>
    cases h
    rw [decode?_eq_some.1 known, List.toList_toArray]
  case h_2 => cases h

namespace Bytes

/-- The bytes from a position up to the first zero byte, or up to the end. -/
def textAt (data : Bytes) (pos : Nat) : Bytes := upToNul (data.extract pos data.size)

/-- The position behind these bytes, and behind the zero byte if there is one. -/
def behindText (data : Bytes) (pos : Nat) : Nat :=
  if pos + (data.textAt pos).size < data.size then pos + (data.textAt pos).size + 1
  else pos + (data.textAt pos).size

variable {data : Bytes} {pos : Nat}

theorem size_textAt_le (data : Bytes) (pos : Nat) : (data.textAt pos).size ≤ data.size - pos := by
  have front := size_upToNul_le (data.extract pos data.size)
  rw [Array.size_extract, Nat.min_self] at front
  exact front

theorem le_behindText (data : Bytes) (pos : Nat) : pos ≤ data.behindText pos := by
  unfold behindText
  split <;> omega

theorem behindText_le (inside : pos ≤ data.size) : data.behindText pos ≤ data.size := by
  have short := data.size_textAt_le pos
  unfold behindText
  split <;> omega

/-- Text in front of the end of the vector is ended by a zero byte. -/
theorem extract_behindText_of_lt (ends : pos + (data.textAt pos).size < data.size) :
    (data.extract pos (data.behindText pos)).toList = (data.textAt pos).toList ++ [0] := by
  have shorter : (data.textAt pos).size ≠ (data.extract pos data.size).size := by
    rw [Array.size_extract]
    omega
  have front : At (data.extract pos data.size) ((data.textAt pos).toList ++ [0]) 0 :=
    (upToNul_eq_iff.1 ⟨shorter, Array.toArray_toList.symm⟩).2
  have stands := ((at_extract_iff (by simp)).1 front).1
  have whole := stands.extract (by simp; omega)
  rw [List.length_append, List.length_singleton, Array.length_toList, ← Nat.add_assoc] at whole
  rw [behindText, if_pos ends, whole, List.toList_toArray]

/-- Text that no zero byte ends reaches up to the end of the vector. -/
theorem extract_behindText_of_le (inside : pos ≤ data.size)
    (unended : data.size ≤ pos + (data.textAt pos).size) :
    data.behindText pos = data.size ∧ data.extract pos (data.behindText pos) = data.textAt pos := by
  have short := data.size_textAt_le pos
  have stop : data.behindText pos = data.size := by
    rw [behindText, if_neg (Nat.not_lt.2 unended)]
    omega
  have all : (data.textAt pos).size = (data.extract pos data.size).size := by
    rw [Array.size_extract]
    omega
  have front := extract_upToNul (data.extract pos data.size)
  rw [← textAt, all, Array.extract_size] at front
  exact ⟨stop, by rw [stop, front]⟩

end Bytes

namespace Reader

variable {c c' : Cursor}

/-- A text is passed over before it is known to be one. -/
theorem text_eq (c : Cursor) :
    Reader.text c =
      match Utf8.decode (c.data.textAt c.pos) with
      | .ok text => .ok text { c with pos := c.data.behindText c.pos }
      | .error fault =>
        .error (.malformed (.text c.pos (c.pos + (c.data.textAt c.pos).size) fault))
          { c with pos := c.data.behindText c.pos } := rfl

/-- The bytes of a text are ended by a zero byte, which is passed over too, or by the vector. -/
theorem passed_text {text : String} (h : Reader.text c = .ok text c') (inside : c.InBounds) :
    0 ∉ Utf8.encode text ∧
      (c.passed c' = Utf8.encode text ++ [0] ∨
        c'.pos = c.data.size ∧ c.passed c' = Utf8.encode text) := by
  rw [text_eq] at h
  split at h
  case h_1 found decoded =>
    cases h
    rw [← Utf8.decode_eq_ok decoded]
    refine ⟨Bytes.zero_notMem_upToNul _, ?_⟩
    by_cases ends : c.pos + (c.data.textAt c.pos).size < c.data.size
    · exact .inl (Bytes.extract_behindText_of_lt ends)
    · obtain ⟨stop, all⟩ := Bytes.extract_behindText_of_le inside (Nat.le_of_not_lt ends)
      exact .inr ⟨stop, congrArg Array.toList all⟩
  case h_2 => cases h

end Reader

/-! ## Instructions -/

/-- The bytes of an opcode. -/
inductive Opcode.Form : List UInt8 → Opcode → Prop
  | plain {byte : UInt8} {o : Opcode} (other : byte ≠ escape) (known : plain? byte = some o) :
      Form [byte] o
  | escaped {byte : UInt8} {o : Opcode} (known : escaped? byte = some o) : Form [escape, byte] o

/-- The bytes of an operand. Those of a `switch` are a count and as many distances. -/
inductive Operand.Form : OperandKind → List UInt8 → Operand → Prop
  | none : Form .none [] .none
  | int8 {l : List UInt8} {value : Int} (h : NumberForm 1 true l value) :
      Form .int8 l (.immediate value)
  | uint8 {l : List UInt8} {value : Int} (h : NumberForm 1 false l value) :
      Form .uint8 l (.immediate value)
  | uint16 {l : List UInt8} {value : Int} (h : NumberForm 2 false l value) :
      Form .uint16 l (.immediate value)
  | int32 {l : List UInt8} {value : Int} (h : NumberForm 4 true l value) :
      Form .int32 l (.immediate value)
  | int64 {l : List UInt8} {value : Int} (h : NumberForm 8 true l value) :
      Form .int64 l (.immediate value)
  | float32 (bits : UInt32) : Form .float32 (Bytes.leBytes 4 bits.toNat) (.float (.ofSingle bits))
  | float64 (value : Binary64) : Form .float64 (Bytes.leBytes 8 value.bits.toNat) (.float value)
  | token (token : Token) : Form .token (Bytes.leBytes 4 token.value.toNat) (.token token)
  | branch8 {l : List UInt8} {distance : Int} (h : NumberForm 1 true l distance) :
      Form .branch8 l (.target distance)
  | branch32 {l : List UInt8} {distance : Int} (h : NumberForm 4 true l distance) :
      Form .branch32 l (.target distance)
  | switch {count : List UInt8} {fields : List (List UInt8)} {distances : List Int}
      (counts : NumberForm 4 false count distances.length)
      (each : List.Forall₂ (NumberForm 4 true) fields distances) :
      Form .switch (count ++ fields.flatten) (.switch distances)

/-- The bytes of an instruction, its opcode and its operand, wherever it stands. -/
def Instruction.Form (l : List UInt8) (i : Instruction) : Prop :=
  ∃ front behind, l = front ++ behind ∧ Opcode.Form front i.opcode ∧
    Operand.Form i.opcode.operand behind i.operand

section Instructions

variable {c c' : Cursor}

theorem Opcode.form_of_read {o : Opcode} (h : read c = .ok o c') : Form (c.passed c') o := by
  obtain ⟨first, c₁, byte, looked⟩ := read_eq_ok.1 h
  obtain ⟨same, forward⟩ := Local.keeps byte
  rw [← Cursor.passed_append same forward (Local.keeps looked).2, passed_u8 byte]
  unfold lookup at looked
  split at looked
  case isTrue isEscape =>
    obtain ⟨second, next, known⟩ := map_eq_ok.1 looked
    rw [passed_u8 next, isEscape]
    exact .escaped known
  case isFalse other =>
    obtain ⟨known, rfl⟩ := pure_eq_ok.1 looked
    rw [Cursor.passed_self]
    exact .plain other known

theorem Operand.form_of_read_switch {operand : Operand} (h : read .switch c = .ok operand c') :
    Form .switch (c.passed c') operand := by
  obtain ⟨count, c₁, counted, rest, front⟩ := passed_bind h
  obtain ⟨_, c₂, enough, answer⟩ := bind_eq_ok.1 rest
  rw [ensure_keeps enough] at answer
  obtain ⟨distances, all, rfl⟩ := map_eq_ok.1 answer
  obtain ⟨fields, each, behind⟩ := passed_times form_of_int all
  rw [front, behind]
  refine .switch ?_ each
  rw [length_of_times all]
  exact form_of_field counted

theorem Operand.form_of_read {kind : OperandKind} {operand : Operand}
    (h : read kind c = .ok operand c') : Form kind (c.passed c') operand := by
  cases kind
  case switch => exact form_of_read_switch h
  case none =>
    obtain ⟨rfl, rfl⟩ := pure_eq_ok.1 h
    rw [Cursor.passed_self]
    exact .none
  all_goals obtain ⟨value, field, rfl⟩ := map_eq_ok.1 h
  case int8 => exact .int8 (form_of_int field)
  case uint8 => exact .uint8 (form_of_field field)
  case uint16 => exact .uint16 (form_of_field field)
  case int32 => exact .int32 (form_of_int field)
  case int64 => exact .int64 (form_of_int field)
  case float32 => rw [(passed_field field).1]; exact .float32 value
  case float64 => rw [(passed_field field).1]; exact .float64 ⟨value⟩
  case token => rw [(passed_field field).1]; exact .token ⟨value⟩
  case branch8 => exact .branch8 (form_of_int field)
  case branch32 => exact .branch32 (form_of_int field)

/-- An instruction that is read is stated by the bytes passed over, and ends where they end. -/
theorem Instruction.form_of_read {i : Instruction} (h : read c = .ok i c') :
    i.offset = c.pos ∧ c'.pos = i.stop ∧ Form (c.passed c') i := by
  have forward := (Advances.forward h).2
  obtain ⟨o, c₁, operand, opcode, behind, rfl⟩ := read_eq_ok h
  obtain ⟨same, first⟩ := Local.keeps opcode
  refine ⟨rfl, ?_, c.passed c₁, c₁.passed c', ?_, Opcode.form_of_read opcode,
    Operand.form_of_read behind⟩
  · simp only [stop]
    omega
  · exact (Cursor.passed_append same first (Local.keeps behind).2).symm

end Instructions

end ManagedImage
