/-
Method bodies and their code on the machine. The range of the code stops at the
largest number, so a sum that does not fit is found behind the end of the file;
the bytes of a `switch` are a product that is tested. The size of an instruction
is a difference of positions, and reading only moves forward.
-/
import ManagedImage.Proofs.InstructionSplit
import ManagedImage.Proofs.Machine.Headers

namespace ManagedImage

/-! ## Bounds of a header -/

open Reader in
/-- What a header says is bounded by the widths of its fields. -/
theorem MethodBody.bounds_of_readHeader {c c' : Cursor} {b : MethodBody}
    (h : readHeader c = .ok b c') : b.offset = c.pos ∧ b.headerSize ≤ 60 ∧ b.codeSize < 2 ^ 32 := by
  rw [readHeader, bind_of_ok (position_ok c)] at h
  obtain ⟨first, c₁, peeked, h⟩ := bind_eq_ok.1 h
  have first_lt := first.toNat_lt
  split at h
  · obtain ⟨rfl, -⟩ := pure_eq_ok.1 h
    exact ⟨rfl, Nat.le_of_ble_eq_true rfl, by simp only; omega⟩
  split at h
  · rw [peek] at peeked
    split at peeked
    case h_2 => cases peeked
    cases peeked
    rw [readFat, bind_of_ok (position_ok c)] at h
    obtain ⟨flagsAndSize, _, -, h⟩ := bind_eq_ok.1 h
    have flags_lt := flagsAndSize.toNat_lt
    dsimp only at h
    split at h
    · cases h
    · iterate 3 obtain ⟨_, _, -, h⟩ := bind_eq_ok.1 h
      obtain ⟨rfl, -⟩ := pure_eq_ok.1 h
      exact ⟨rfl, by simp only; omega, UInt32.toNat_lt _⟩
  · cases h

/-! ## The next byte -/

open Reader in
theorem Reader.peek_advance {β : Type} {f : UInt8 → Reader β} (c : Cursor) :
    (peek u8 >>= fun first => advance 1 >>= fun _ => f first) c = (u8 >>= f) c := by
  by_cases more : c.pos < c.data.size
  · have byte := u8_of_fits more
    have peeked : peek u8 c = .ok (c.data.getD c.pos 0) c := by rw [peek, byte]
    have one : 1 ≤ c.remaining := by simp only [Cursor.remaining]; omega
    rw [bind_of_ok byte, bind_of_ok peeked, bind_of_ok (advance_of_fits one)]
  · have byte := u8_of_lacks more
    have peeked : peek u8 c = .error (.outOfBounds c.pos 1 c.data.size) c := by rw [peek, byte]
    rw [bind_of_error byte, bind_of_error peeked]

namespace Machine

open Programmed (program faithful keeps)

variable {α β : Type}

/-! ## Method bodies -/

/-- The fields of a fat header. Its own size is in the top four bits of the first field. -/
def fatHeader (first : UInt8) : Reading MethodBody := do
  let offset ← program Reader.position
  let flagsAndSize ← program Reader.u16
  let headerSize ← mul 64 (← shiftDown 16 flagsAndSize.toNat 12) 4
  if headerSize < MethodBody.fatSize then throw (.refused (.methodHeader offset first))
  let maxStack ← program Reader.u16
  let codeSize ← program Reader.u32
  let localsToken ← program Reader.u32
  return { offset, codeSize := codeSize.toNat, headerSize, maxStack := maxStack.toNat, localsToken,
           flags := flagsAndSize.toNat % 0x1000 &&& MethodBody.knownFlags, isFat := true }

/-- A header. -/
def methodHeader : Reading MethodBody := do
  let offset ← program Reader.position
  let first ← program (Reader.peek Reader.u8)
  if first % 4 = 2 then
    let codeSize ← shiftDown 8 first.toNat 2
    return { offset, codeSize, headerSize := 1, maxStack := 8, localsToken := 0, flags := 0x02,
             isFat := false }
  else if first % 4 = 3 then fatHeader first
  else throw (.refused (.methodHeader offset first))

theorem fatHeader_faithful {first : UInt8} {c : Cursor} (sound : c.Addressable) :
    fatHeader first c = ended (MethodBody.readFat first c) := by
  refine bind_position (bind_program sound fun {flagsAndSize _} _ sound => ?_)
  have words := flagsAndSize.toNat_lt
  rw [lift_bind (shiftDown_eq (by decide)), Nat.shiftRight_eq_div_pow, lift_bind (mul_eq (by omega))]
  dsimp only
  split
  · rfl
  · refine bind_program sound fun _ sound => bind_program sound fun _ sound => ?_
    exact bind_program sound fun _ _ => rfl

theorem methodHeader_faithful {c : Cursor} (sound : c.Addressable) :
    methodHeader c = ended (MethodBody.readHeader c) := by
  refine bind_position (bind_program sound fun {first _} _ sound => ?_)
  split
  · rw [lift_bind (shiftDown_eq (by decide)), Nat.shiftRight_eq_div_pow]
    rfl
  split
  · exact fatHeader_faithful sound
  · rfl

/-- The range of the code, whose ends stop at the largest number. -/
def codeSpan (b : MethodBody) : Span :=
  let start := saturating 64 b.offset b.headerSize
  ⟨start, saturating 64 start b.codeSize⟩

/-- The body at a position of a file. -/
def methodBody (data : Bytes) (offset : Nat) : Run MethodBody := do
  let body ← methodHeader.runAt data offset
  let code := codeSpan body
  if data.size < code.stop ∨ code.stop < code.start then
    refuse (.outOfBounds code.start body.codeSize data.size)
  return body

theorem codeSpan_eq {b : MethodBody} (fits : b.codeSpan.stop < 2 ^ 64) : codeSpan b = b.codeSpan := by
  rw [MethodBody.codeSpan] at fits ⊢
  dsimp only at fits
  rw [codeSpan, saturating_eq (by omega), saturating_eq (by omega)]

theorem methodBody_eq {data : Bytes} {offset : Nat} (sound : Cursor.Addressable ⟨data, offset⟩) :
    methodBody data offset = Run.of (MethodBody.read data offset) := by
  refine Run.bind_of (runAt_of_ended (methodHeader_faithful sound)) fun b found => ?_
  obtain ⟨c', found⟩ := Reader.runAt_eq_ok.1 found
  obtain ⟨there, header, code⟩ := MethodBody.bounds_of_readHeader found
  have inside : offset ≤ data.size := sound.inside
  have short : data.size < 2 ^ 63 := sound.short
  rw [codeSpan_eq (by simp only [MethodBody.codeSpan, there]; omega)]
  have order : ¬ b.codeSpan.stop < b.codeSpan.start := Nat.not_lt.2 (Nat.le_add_right ..)
  by_cases past : data.size < b.codeSpan.stop
  · rw [if_pos (.inl past), if_pos past]
    rfl
  · rw [if_neg (not_or.2 ⟨past, order⟩), if_neg past]
    rfl

/-- The body of a method. -/
def locate (f : File) (method : Row MethodDefColumns) : Run (Option MethodCode) := do
  if method.columns.hasBody then
    let offset ← fileOffset f method.columns.rva
    let body ← methodBody f.data offset
    return some ⟨method.rid, method.token, method.columns.rva, body⟩
  else return none

theorem locate_eq {f : File} (short : f.data.size < 2 ^ 63) (method : Row MethodDefColumns) :
    locate f method = Run.of (MethodCode.locate f method) := by
  rw [locate, MethodCode.locate]
  split
  · refine Run.bind_of (fileOffset_eq f _) fun offset found => ?_
    have inside := (File.fileOffset_eq_ok.1 found).2
    refine Run.bind_of (methodBody_eq ⟨Nat.le_of_lt inside, short⟩) fun _ _ => rfl
  · rfl

/-- What became of each method, behind those already seen. -/
def locateAll (f : File) : List (Row MethodDefColumns) → MethodBodies → Run MethodBodies
  | [], seen => return seen
  | method :: later, seen => do
    match ← attempt (locate f method) with
    | .ok (some code) => locateAll f later { seen with found := seen.found ++ [code] }
    | .ok none => do
      let withoutBody ← add 64 seen.withoutBody 1
      locateAll f later { seen with withoutBody }
    | .error error =>
      let failure := ⟨method.rid, method.token, error⟩
      locateAll f later { seen with failures := seen.failures ++ [failure] }

theorem locateAll_eq {f : File} (short : f.data.size < 2 ^ 63) {methods : List (Row MethodDefColumns)}
    {seen : MethodBodies} (few : seen.withoutBody + methods.length < 2 ^ 64) :
    locateAll f methods seen =
      let later := MethodBodies.locate f methods
      .ok ⟨seen.found ++ later.found, seen.failures ++ later.failures,
        seen.withoutBody + later.withoutBody⟩ := by
  induction methods generalizing seen with
  | nil =>
    show Except.ok seen = .ok ⟨seen.found ++ [], seen.failures ++ [], seen.withoutBody + 0⟩
    rw [List.append_nil, List.append_nil, Nat.add_zero]
  | cons method methods ih =>
    rw [List.length_cons] at few
    rw [locateAll, locate_eq short, attempt_of, ok_bind, MethodBodies.locate_cons]
    rcases MethodCode.locate f method with error | _ | code
    · dsimp only
      rw [ih (by simp only; omega), MethodBodies.add]
      simp only [List.append_assoc, List.singleton_append]
    · dsimp only
      rw [add_eq (by omega), ok_bind, ih (by simp only; omega), MethodBodies.add]
      simp only [Nat.add_assoc, Nat.add_comm 1]
    · dsimp only
      rw [ih (by simp only; omega), MethodBodies.add]
      simp only [List.append_assoc, List.singleton_append]

/-! ## Instructions -/

/-- An opcode. -/
def opcode : Reading Opcode := do
  let offset ← program Reader.position
  let first ← program Reader.u8
  if first = Opcode.escape then
    let second ← program Reader.u8
    match Opcode.escaped? second with
    | some opcode => return opcode
    | none => throw (.refused (.malformed (.escapedOpcode second offset)))
  else
    match Opcode.plain? first with
    | some opcode => return opcode
    | none => throw (.refused (.malformed (.opcode first offset)))

instance : Programmed Opcode.read where
  program := opcode
  faithful sound := by
    refine bind_position (bind_program sound fun {first _} _ sound => ?_)
    split
    · refine bind_program sound fun {second _} _ _ => ?_
      cases Opcode.escaped? second <;> rfl
    · cases Opcode.plain? first <;> rfl
  keeps := addressable_of_read

/-- The count of entries of a `switch` and the size of all of them, which is tested. -/
def switchTable (next : Nat → Nat → Reading α) : Reading α := do
  let count ← program (Reader.nat 4)
  match checked 64 (count * 4) with
  | some size => next count size
  | none =>
    let c ← get
    throw (.refused (.outOfBounds c.pos (2 ^ 64 - 1) c.data.size))

/-- Four bytes for each of fewer than `2 ^ 32` entries are never too many. -/
theorem switchTable_faithful {next : Nat → Nat → Reading α} {f : Nat → Reader α} {c : Cursor}
    (sound : c.Addressable)
    (same : ∀ {count c'}, c'.Addressable → next count (count * 4) c' = ended (f count c')) :
    switchTable next c = ended ((Reader.nat 4 >>= f) c) := by
  refine bind_program sound fun {count c'} read sound' => ?_
  have few : count < Bytes.capacity 4 := by
    obtain ⟨-, rfl, -⟩ := Reader.nat_keeps read
    exact Bytes.leNat_lt ..
  simp only [Bytes.capacity] at few
  rw [checked_eq (by omega)]
  exact same sound'

instance : (kind : OperandKind) → Programmed (Operand.read kind)
  | .none => inferInstanceAs (Programmed (pure Operand.none))
  | .int8 => inferInstanceAs (Programmed (Operand.immediate <$> Reader.int 1))
  | .uint8 => inferInstanceAs (Programmed ((Operand.immediate ·.toNat) <$> Reader.u8))
  | .uint16 => inferInstanceAs (Programmed ((Operand.immediate ·.toNat) <$> Reader.u16))
  | .int32 => inferInstanceAs (Programmed (Operand.immediate <$> Reader.int 4))
  | .int64 => inferInstanceAs (Programmed (Operand.immediate <$> Reader.int 8))
  | .float32 => inferInstanceAs (Programmed ((Operand.float <| .ofSingle ·) <$> Reader.u32))
  | .float64 => inferInstanceAs (Programmed ((Operand.float ⟨·⟩) <$> Reader.u64))
  | .token => inferInstanceAs (Programmed ((Operand.token ⟨·⟩) <$> Reader.u32))
  | .branch8 => inferInstanceAs (Programmed (Operand.target <$> Reader.int 1))
  | .branch32 => inferInstanceAs (Programmed (Operand.target <$> Reader.int 4))
  | .switch =>
    { program := switchTable fun count size => do
        program (Reader.ensure size)
        program (Operand.switch <$> Reader.times (Reader.int 4) count)
      faithful := fun sound => switchTable_faithful sound fun sound =>
        bind_program sound fun _ sound => faithful sound
      keeps := addressable_of_read }

/-- An instruction. -/
def instruction : Reading Instruction := do
  let offset ← program Reader.position
  let opcode ← program Opcode.read
  let operand ← program (Operand.read opcode.operand)
  let size ← sub (← program Reader.position) offset
  return { offset, size, opcode, operand }

theorem instruction_faithful {c : Cursor} (sound : c.Addressable) :
    instruction c = ended (Instruction.read c) := by
  refine bind_position (bind_program sound fun {_ c₁} first sound => ?_)
  refine bind_program sound fun {_ c₂} second _ => bind_position ?_
  have order : c.pos ≤ c₂.pos :=
    Nat.le_trans (Reader.Local.keeps first).2 (Reader.Local.keeps second).2
  rw [lift_bind (sub_eq order)]
  rfl

instance : Programmed Instruction.read where
  program := instruction
  faithful := instruction_faithful
  keeps := addressable_of_read

/-! ## String loads -/

instance : (kind : OperandKind) → Programmed (StringSite.skipOperand kind)
  | .none => inferInstanceAs (Programmed (Reader.advance 0))
  | .int8 | .uint8 | .branch8 => inferInstanceAs (Programmed (Reader.advance 1))
  | .uint16 => inferInstanceAs (Programmed (Reader.advance 2))
  | .int32 | .float32 | .token | .branch32 => inferInstanceAs (Programmed (Reader.advance 4))
  | .int64 | .float64 => inferInstanceAs (Programmed (Reader.advance 8))
  | .switch =>
    { program := switchTable fun _ size => program (Reader.advance size)
      faithful := fun sound => switchTable_faithful sound faithful
      keeps := fun h sound => addressable_of_read
        (r := Reader.nat 4 >>= fun count => Reader.advance (count * 4)) h sound }

instance (offset : Nat) : Programmed (StringSite.readToken offset) := by
  delta StringSite.readToken; infer_instance

instance (first : UInt8) : Programmed (Opcode.lookup first) := by
  delta Opcode.lookup; infer_instance

instance (offset : Nat) : (found : Option Opcode) → Programmed (StringSite.finish offset found)
  | some opcode =>
    inferInstanceAs (Programmed (StringSite.skipOperand opcode.operand >>= fun _ =>
      pure (none : Option StringSite)))
  | none =>
    inferInstanceAs (Programmed (Reader.seek offset >>= fun _ =>
      ((fun _ => ()) <$> Instruction.read) >>= fun _ => pure (none : Option StringSite)))

/-- Passes over an instruction. The byte that begins it is looked at first, and passed over then. -/
def nextSite : Reading (Option StringSite) := do
  let offset ← program Reader.position
  let first ← program (Reader.peek Reader.u8)
  program (Reader.advance 1)
  if first = Opcode.loadString then program (StringSite.readToken offset)
  else program (StringSite.finish offset (← program (Opcode.lookup first)))

theorem nextSite_faithful {c : Cursor} (sound : c.Addressable) :
    nextSite c = ended (StringSite.next c) := by
  rw [StringSite.next_eq]
  refine bind_position ?_
  rw [← Reader.peek_advance]
  refine bind_program sound fun {first c₂} _ sound => bind_program sound fun _ sound => ?_
  split
  · exact faithful sound
  · exact bind_program sound fun _ sound => faithful sound

theorem addressable_of_next {c c' : Cursor} {site : Option StringSite}
    (h : StringSite.next c = .ok site c') (sound : c.Addressable) : c'.Addressable := by
  have follows := StringSite.next_follows c
  cases whole : Instruction.read c with
  | error e c₁ =>
    obtain ⟨c₂, failed⟩ := follows.fails whole
    rw [failed] at h
    cases h
  | ok i c₁ =>
    rw [follows.answers whole] at h
    cases h
    exact addressable_of_read whole sound

instance : Programmed StringSite.next where
  program := nextSite
  faithful := nextSite_faithful
  keeps := addressable_of_next

/-- The string loads of code. -/
def findSites (code : Bytes) : Run (List StringSite) := do
  return (← (program (Reader.untilEnd StringSite.next)).runAt code 0).filterMap id

theorem findSites_eq {code : Bytes} (sound : (Cursor.start code).Addressable) :
    findSites code = Run.of (StringSite.findAll code) :=
  Run.bind_of (runAt_program sound) fun _ _ => rfl

end Machine

end ManagedImage
