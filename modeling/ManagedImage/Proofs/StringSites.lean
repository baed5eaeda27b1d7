/-
The scan of code for string loads against the full reading of the code. The
scan passes over operands without reading them, and turns back to the full
reading where it finds no opcode. It follows the full reading instruction by
instruction (`next_follows`), so it finds the string loads among the
instructions of the code, and fails as the full reading fails
(`findAll_eq_map_readAll`).
-/
import ManagedImage.Cil.StringSite
import ManagedImage.Proofs.Readers

namespace ManagedImage

open Reader

/-! ## The opcode tables -/

namespace Opcode

theorem getElem?_tableOf (escaped : Bool) (runs : List Run) (byte : UInt8) :
    (tableOf escaped runs)[byte.toNat]?.join =
      (find? byte.toNat runs).map fun (mnemonic, operand) => ⟨escaped, byte, mnemonic, operand⟩ := by
  have inside : byte.toNat < 256 := byte.toNat_lt
  rw [tableOf, Array.getElem?_ofFn, dif_pos inside, Option.join_some, UInt8.ofNat_toNat]

theorem plain?_eq_some {byte : UInt8} {o : Opcode} (h : plain? byte = some o) :
    o.escaped = false ∧ o.value = byte := by
  rw [plain?, plainTable, getElem?_tableOf] at h
  obtain ⟨found, -, rfl⟩ := Option.map_eq_some_iff.1 h
  exact ⟨rfl, rfl⟩

theorem escaped?_eq_some {byte : UInt8} {o : Opcode} (h : escaped? byte = some o) :
    o.escaped = true := by
  rw [escaped?, escapedTable, getElem?_tableOf] at h
  obtain ⟨found, -, rfl⟩ := Option.map_eq_some_iff.1 h
  rfl

theorem plain?_loadString : plain? loadString = some ⟨false, loadString, "ldstr", .token⟩ := by
  decide +kernel

/-- The opcode that begins with `first`, none if there is no such opcode. -/
def lookup (first : UInt8) : Reader (Option Opcode) :=
  if first = escape then escaped? <$> u8 else pure (plain? first)

instance (first : UInt8) : Local (lookup first) := by unfold lookup; infer_instance

theorem lookup_loadString (c : Cursor) :
    lookup loadString c = .ok (some ⟨false, loadString, "ldstr", .token⟩) c := by
  rw [lookup, if_neg (by decide), plain?_loadString]
  rfl

/-- Behind another first byte than that of the string load stands another opcode. -/
theorem ne_loadString {c c' : Cursor} {first : UInt8} {o : Opcode}
    (found : lookup first c = .ok (some o) c') (other : first ≠ loadString) :
    (!o.escaped && decide (o.value = loadString)) = false := by
  unfold lookup at found
  split at found
  · obtain ⟨second, -, known⟩ := map_eq_ok.1 found
    rw [escaped?_eq_some known]; rfl
  · rw [pure_eq_ok] at found
    obtain ⟨plain, value⟩ := plain?_eq_some found.1
    rw [plain, value, decide_eq_false other]; rfl

theorem read_of_lookup_some {c c₁ c₂ : Cursor} {first : UInt8} {o : Opcode}
    (byte : u8 c = .ok first c₁) (found : lookup first c₁ = .ok (some o) c₂) :
    read c = .ok o c₂ := by
  unfold read
  rw [bind_of_ok (position_ok c), bind_of_ok byte]
  unfold lookup at found
  split at found <;> rename_i isEscape
  · obtain ⟨second, next, known⟩ := map_eq_ok.1 found
    rw [if_pos isEscape, bind_of_ok next, known]
    rfl
  · rw [pure_eq_ok] at found
    rw [if_neg isEscape, found.1, found.2]
    rfl

theorem read_of_lookup_none {c c₁ c₂ : Cursor} {first : UInt8}
    (byte : u8 c = .ok first c₁) (found : lookup first c₁ = .ok none c₂) :
    ∃ e, read c = .error e c₂ := by
  unfold read
  rw [bind_of_ok (position_ok c), bind_of_ok byte]
  unfold lookup at found
  split at found <;> rename_i isEscape
  · obtain ⟨second, next, unknown⟩ := map_eq_ok.1 found
    rw [if_pos isEscape, bind_of_ok next, unknown]
    exact ⟨_, rfl⟩
  · rw [pure_eq_ok] at found
    rw [if_neg isEscape, found.1, found.2]
    exact ⟨_, rfl⟩

theorem read_of_lookup_error {c c₁ c₂ : Cursor} {first : UInt8} {e : Error}
    (byte : u8 c = .ok first c₁) (failed : lookup first c₁ = .error e c₂) :
    read c = .error e c₂ := by
  unfold read
  rw [bind_of_ok (position_ok c), bind_of_ok byte]
  unfold lookup at failed
  split at failed <;> rename_i isEscape
  · cases next : u8 c₁ with
    | ok second c' =>
      have known : (escaped? <$> u8) c₁ = .ok (escaped? second) c' := map_eq_ok.2 ⟨_, next, rfl⟩
      rw [known] at failed
      cases failed
    | error e' c' =>
      rw [map_of_error next] at failed
      cases failed
      rw [if_pos isEscape, bind_of_error next]
  · cases failed

theorem read_eq_ok {c c' : Cursor} {o : Opcode} :
    read c = .ok o c' ↔
      ∃ first c₁, u8 c = .ok first c₁ ∧ lookup first c₁ = .ok (some o) c' := by
  constructor
  · intro h
    cases byte : u8 c with
    | error e c₁ =>
      rw [read, bind_of_ok (position_ok c), bind_of_error byte] at h
      cases h
    | ok first c₁ =>
      refine ⟨first, c₁, rfl, ?_⟩
      cases looked : lookup first c₁ with
      | error e c₂ => rw [read_of_lookup_error byte looked] at h; cases h
      | ok o? c₂ =>
        cases o? with
        | none =>
          obtain ⟨e, failed⟩ := read_of_lookup_none byte looked
          rw [failed] at h
          cases h
        | some o' =>
          rw [read_of_lookup_some byte looked] at h
          cases h
          rfl
  · rintro ⟨first, c₁, byte, looked⟩
    exact read_of_lookup_some byte looked

theorem pos_of_read {c c' : Cursor} {o : Opcode} (h : read c = .ok o c') :
    c'.pos = c.pos + o.size := by
  obtain ⟨first, c₁, byte, looked⟩ := read_eq_ok.1 h
  obtain ⟨-, -, rfl⟩ := u8_keeps byte
  unfold lookup at looked
  split at looked
  · obtain ⟨second, next, known⟩ := map_eq_ok.1 looked
    obtain ⟨-, -, rfl⟩ := u8_keeps next
    rw [size, escaped?_eq_some known]
    rfl
  · obtain ⟨known, rfl⟩ := pure_eq_ok.1 looked
    rw [size, (plain?_eq_some known).1]
    rfl

end Opcode

/-! ## Operands -/

/-- Every operand of a known size is a field, but for the empty one. -/
theorem Operand.read_field {kind : OperandKind} {n : Nat} (size : kind.size? = some n)
    (pos : 0 < n) :
    ∃ g : Nat → Operand, Operand.read kind = Reader.nat n >>= fun value => pure (g value) := by
  cases kind <;> cases size
  case none => cases pos
  all_goals
    exact ⟨_, by
      simp only [Operand.read, int, u8, u16, u32, u64, map_bind, map_pure]
      rfl⟩

theorem Reader.times_int_of_fits (n count : Nat) {c : Cursor}
    (fits : c.pos + count * n ≤ c.data.size) :
    ∃ l, times (int n) count c = .ok l { c with pos := c.pos + count * n } := by
  induction count generalizing c with
  | zero => exact ⟨[], by rw [Nat.zero_mul]; rfl⟩
  | succ count ih =>
    rw [Nat.succ_mul] at fits
    have first : int n c = .ok (Int.bmod (c.data.leNat c.pos n) (Bytes.capacity n))
        { c with pos := c.pos + n } := bind_of_ok (nat_of_fits (by omega))
    obtain ⟨l, later⟩ := @ih { c with pos := c.pos + n } (by simp only; omega)
    refine ⟨Int.bmod (c.data.leNat c.pos n) (Bytes.capacity n) :: l, ?_⟩
    rw [times, bind_of_ok first, bind_of_ok later, pure_eq_ok]
    refine ⟨rfl, ?_⟩
    rw [Nat.succ_mul, Nat.add_comm (count * n) n, ← Nat.add_assoc]

namespace StringSite

theorem advance_follows {kind : OperandKind} {n : Nat} (size : kind.size? = some n) (pos : 0 < n)
    (c : Cursor) : Follows (fun _ => ()) (advance n) (Operand.read kind) c := by
  obtain ⟨g, field⟩ := Operand.read_field size pos
  rw [field]
  by_cases fits : c.pos + n ≤ c.data.size
  · refine Follows.of_ok (bind_of_ok (nat_of_fits fits)) (advance_of_fits ?_)
    simp only [Cursor.remaining]; omega
  · refine Follows.of_error (bind_of_error (nat_of_lacks fits)) (advance_of_lacks ?_)
    simp only [Cursor.remaining]; omega

theorem skipOperand_follows (kind : OperandKind) (c : Cursor) :
    Follows (fun _ => ()) (skipOperand kind) (Operand.read kind) c := by
  cases kind
  case none => exact Follows.of_ok (pure_eq_ok.2 ⟨rfl, rfl⟩) (advance_of_fits (Nat.zero_le _))
  case switch =>
    refine Follows.bind_same fun {count c'} counted => ?_
    obtain ⟨room, -, rfl⟩ := nat_keeps counted
    by_cases fits : count * 4 ≤ Cursor.remaining { c with pos := c.pos + 4 }
    · have inside : c.pos + 4 + count * 4 ≤ c.data.size := by
        simp only [Cursor.remaining] at fits; omega
      obtain ⟨distances, all⟩ := @times_int_of_fits 4 count { c with pos := c.pos + 4 } inside
      have answer : (Operand.switch <$> times (int 4) count) { c with pos := c.pos + 4 } = _ :=
        map_eq_ok.2 ⟨distances, all, rfl⟩
      exact Follows.of_ok ((bind_of_ok (ensure_of_fits fits)).trans answer) (advance_of_fits fits)
    · exact Follows.of_error (bind_of_error (ensure_of_lacks fits)) (advance_of_lacks fits)
  all_goals exact advance_follows rfl (by decide) c

end StringSite

/-! ## Instructions -/

namespace Instruction

/-- Whether the instruction is the load of a string, an opcode of one byte. -/
def loadsString (i : Instruction) : Bool :=
  !i.opcode.escaped && i.opcode.value = Opcode.loadString

/-- The site of the instruction, if it is a string load. -/
def stringSite? (i : Instruction) : Option StringSite :=
  if i.loadsString then i.token?.map (StringSite.mk i.offset) else none

end Instruction

namespace StringSite

/-- What `next` does behind the opcode of a string load. -/
def readToken (offset : Nat) : Reader (Option StringSite) :=
  return some ⟨offset, ⟨← Reader.u32⟩⟩

/-- What `next` does behind the first byte of another instruction than a string load. -/
def finish (offset : Nat) : Option Opcode → Reader (Option StringSite)
  | some opcode => do
    skipOperand opcode.operand
    return none
  | none => do
    Reader.seek offset
    discard Instruction.read
    return none

/-- The steps of `next`, with the lookup of the opcode as one of them. -/
theorem next_eq :
    next = (do
      let offset ← Reader.position
      let first ← Reader.u8
      if first = Opcode.loadString then readToken offset
      else finish offset (← Opcode.lookup first)) := by
  unfold next Opcode.lookup
  congr 1
  funext offset
  congr 1
  funext first
  split
  · rfl
  · by_cases isEscape : first = Opcode.escape
    · simp only [if_pos isEscape]
      congr 1
    · simp only [if_neg isEscape]
      congr 1

theorem next_of_load {c c₁ : Cursor} (byte : u8 c = .ok Opcode.loadString c₁) :
    next c = readToken c.pos c₁ := by
  rw [next_eq, bind_of_ok (position_ok c), bind_of_ok byte, if_pos rfl]

theorem next_of_other {c c₁ : Cursor} {first : UInt8} (byte : u8 c = .ok first c₁)
    (other : first ≠ Opcode.loadString) :
    next c = (Opcode.lookup first >>= finish c.pos) c₁ := by
  rw [next_eq, bind_of_ok (position_ok c), bind_of_ok byte, if_neg other]

theorem next_of_error {c c₁ : Cursor} {e : Error} (failed : u8 c = .error e c₁) :
    next c = .error e c₁ := by
  rw [next_eq, bind_of_ok (position_ok c), bind_of_error failed]

end StringSite

namespace Instruction

/-- The instruction of an opcode that was read, behind which its operand is read. -/
theorem read_of_opcode {c c₁ : Cursor} {o : Opcode} (opcode : Opcode.read c = .ok o c₁) :
    read c = (do
      let operand ← Operand.read o.operand
      return { offset := c.pos, size := (← Reader.position) - c.pos, opcode := o, operand } :
        Reader Instruction) c₁ := by
  rw [read, bind_of_ok (position_ok c), bind_of_ok opcode]

theorem read_of_operand {c c₁ c₂ : Cursor} {o : Opcode} {operand : Operand}
    (opcode : Opcode.read c = .ok o c₁) (behind : Operand.read o.operand c₁ = .ok operand c₂) :
    read c = .ok ⟨c.pos, c₂.pos - c.pos, o, operand⟩ c₂ := by
  rw [read_of_opcode opcode, bind_of_ok behind, bind_of_ok (position_ok c₂)]
  rfl

theorem read_of_operand_error {c c₁ c₂ : Cursor} {o : Opcode} {e : Error}
    (opcode : Opcode.read c = .ok o c₁) (failed : Operand.read o.operand c₁ = .error e c₂) :
    read c = .error e c₂ := by
  rw [read_of_opcode opcode, bind_of_error failed]

theorem read_of_opcode_error {c c₁ : Cursor} {e : Error} (failed : Opcode.read c = .error e c₁) :
    read c = .error e c₁ := by
  rw [read, bind_of_ok (position_ok c), bind_of_error failed]

end Instruction

namespace StringSite

theorem follows_of_load {c c₁ : Cursor} (byte : u8 c = .ok Opcode.loadString c₁) :
    Follows Instruction.stringSite? next Instruction.read c := by
  have opcode := Opcode.read_of_lookup_some byte (Opcode.lookup_loadString c₁)
  cases field : u32 c₁ with
  | error e c₂ =>
    have scanned : next c = .error e c₂ := by
      rw [next_of_load byte, readToken, bind_of_error field]
    exact Follows.of_error (Instruction.read_of_operand_error opcode (map_of_error field)) scanned
  | ok token c₂ =>
    have operand : Operand.read .token c₁ = .ok (.token ⟨token⟩) c₂ :=
      map_eq_ok.2 ⟨token, field, rfl⟩
    refine Follows.of_ok (Instruction.read_of_operand opcode operand) ?_
    rw [next_of_load byte, readToken, bind_of_ok field]
    rfl

theorem follows_of_other {c c₁ : Cursor} {first : UInt8} (byte : u8 c = .ok first c₁)
    (other : first ≠ Opcode.loadString) : Follows Instruction.stringSite? next Instruction.read c := by
  cases looked : Opcode.lookup first c₁ with
  | error e c₂ =>
    have failed := Opcode.read_of_lookup_error byte looked
    have scanned : next c = .error e c₂ := by
      rw [next_of_other byte other, bind_of_error looked]
    exact Follows.of_error (Instruction.read_of_opcode_error failed) scanned
  | ok opcode? c₂ =>
    cases opcode? with
    | some o =>
      have opcode := Opcode.read_of_lookup_some byte looked
      have skipped := skipOperand_follows o.operand c₂
      have silent : ∀ size operand, Instruction.stringSite? ⟨c.pos, size, o, operand⟩ = none :=
        fun size operand =>
          if_neg (by simp [Instruction.loadsString, Opcode.ne_loadString looked other])
      cases behind : Operand.read o.operand c₂ with
      | error e c₃ =>
        obtain ⟨c₄, failed⟩ := skipped.fails behind
        have scanned : next c = .error e c₄ := by
          rw [next_of_other byte other, bind_of_ok looked, finish, bind_of_error failed]
        exact Follows.of_error (Instruction.read_of_operand_error opcode behind) scanned
      | ok operand c₃ =>
        refine Follows.of_ok (Instruction.read_of_operand opcode behind) ?_
        rw [next_of_other byte other, bind_of_ok looked, finish, bind_of_ok (skipped.answers behind),
          silent]
        rfl
    | none =>
      obtain ⟨e, failed⟩ := Opcode.read_of_lookup_none byte looked
      have whole := Instruction.read_of_opcode_error failed
      have back : Reader.seek c.pos c₂ = .ok () c := by
        obtain ⟨inside, -, rfl⟩ := u8_keeps byte
        have data : c₂.data = c.data := (Local.keeps looked).1
        rw [Reader.seek, if_pos (by rw [data]; omega), data]
      have again : (discard Instruction.read : Reader Unit) c = .error e c₂ := map_of_error whole
      have scanned : next c = .error e c₂ := by
        rw [next_of_other byte other, bind_of_ok looked, finish, bind_of_ok back, bind_of_error again]
      exact Follows.of_error whole scanned

/--
One step of the scan follows the reading of one instruction. Where the lookup
finds no opcode, the scan goes back and meets the failure of the full reading.
-/
theorem next_follows (c : Cursor) : Follows Instruction.stringSite? next Instruction.read c := by
  cases byte : u8 c with
  | error e c₁ =>
    have failed : Opcode.read c = .error e c₁ := by
      rw [Opcode.read, bind_of_ok (position_ok c), bind_of_error byte]
    exact Follows.of_error (Instruction.read_of_opcode_error failed) (next_of_error byte)
  | ok first c₁ =>
    by_cases isLoad : first = Opcode.loadString
    · subst isLoad
      exact follows_of_load byte
    · exact follows_of_other byte isLoad

end StringSite

namespace Instruction

instance : Local Opcode.read := by
  unfold Opcode.read
  refine Local.bind inferInstance fun offset => Local.bind inferInstance fun first => ?_
  split
  · refine Local.bind inferInstance fun second => ?_
    cases Opcode.escaped? second <;> infer_instance
  · cases Opcode.plain? first <;> infer_instance

instance (kind : OperandKind) : Local (Operand.read kind) := by
  cases kind <;> unfold Operand.read <;> infer_instance

instance : Local read := by unfold read; infer_instance

theorem read_eq_ok {c c' : Cursor} {i : Instruction} (h : read c = .ok i c') :
    ∃ o c₁ operand, Opcode.read c = .ok o c₁ ∧ Operand.read o.operand c₁ = .ok operand c' ∧
      i = ⟨c.pos, c'.pos - c.pos, o, operand⟩ := by
  unfold read at h
  rw [bind_of_ok (position_ok c)] at h
  obtain ⟨o, c₁, opcode, h⟩ := bind_eq_ok.1 h
  obtain ⟨operand, c₂, behind, h⟩ := bind_eq_ok.1 h
  rw [bind_of_ok (position_ok c₂)] at h
  obtain ⟨rfl, rfl⟩ := pure_eq_ok.1 h
  exact ⟨o, c₁, operand, opcode, behind, rfl⟩

/-- A string load is its opcode and a token, which stand in the code one behind the other. -/
theorem read_loadsString {c c' : Cursor} {i : Instruction} (h : read c = .ok i c')
    (isLoad : i.loadsString = true) :
    i.offset = c.pos ∧ c.pos + 5 ≤ c.data.size ∧ c.data.getD c.pos 0 = Opcode.loadString ∧
      i.token? = some ⟨UInt32.ofNat (c.data.leNat (c.pos + 1) 4)⟩ := by
  obtain ⟨o, c₂, operand, opcode, behind, rfl⟩ := read_eq_ok h
  obtain ⟨first, c₁, byte, looked⟩ := Opcode.read_eq_ok.1 opcode
  by_cases isFirst : first = Opcode.loadString
  · subst isFirst
    rw [Opcode.lookup_loadString] at looked
    cases looked
    obtain ⟨word, field, rfl⟩ := map_eq_ok.1 behind
    obtain ⟨inside, value, rfl⟩ := u8_keeps byte
    obtain ⟨fits, rfl, -⟩ := u32_keeps field
    exact ⟨rfl, fits, value.symm, rfl⟩
  · have other := Opcode.ne_loadString looked isFirst
    rw [loadsString, other] at isLoad
    cases isLoad

end Instruction

/-! ## All of the code -/

namespace Instruction

/-- Each string load that is read lies in the code, with its opcode and its token. -/
theorem readAll_loadsString {code : Bytes} {list : List Instruction} {i : Instruction}
    (h : readAll.run code = .ok list) (mem : i ∈ list) (isLoad : i.loadsString = true) :
    i.offset + 5 ≤ code.size ∧ code.getD i.offset 0 = Opcode.loadString ∧
      i.token? = some ⟨UInt32.ofNat (code.leNat (i.offset + 1) 4)⟩ := by
  obtain ⟨pos, c', one⟩ := mem_of_untilEnd h mem
  obtain ⟨offset, fits, byte, token⟩ := read_loadsString one isLoad
  rw [offset]
  exact ⟨fits, byte, token⟩

theorem filterMap_stringSite? {list : List Instruction}
    (h : ∀ i ∈ list, i.loadsString = true → ∃ token, i.token? = some token) :
    (list.filterMap stringSite?).map (fun site => (site.offset, some site.token)) =
      (list.filter loadsString).map fun i => (i.offset, i.token?) := by
  induction list with
  | nil => rfl
  | cons i list ih =>
    have later := ih fun j mem => h j (List.mem_cons_of_mem i mem)
    by_cases isLoad : i.loadsString = true
    · obtain ⟨token, known⟩ := h i List.mem_cons_self isLoad
      have site : i.stringSite? = some ⟨i.offset, token⟩ := by
        rw [stringSite?, if_pos isLoad, known]; rfl
      rw [List.filterMap_cons_some site, List.filter_cons_of_pos isLoad, List.map_cons, List.map_cons,
        later, known]
    · have silent : i.stringSite? = none := by rw [stringSite?, if_neg isLoad]
      rw [List.filterMap_cons_none silent, List.filter_cons_of_neg isLoad, later]

end Instruction

namespace StringSite

/-- The scan finds the sites among the instructions of the code. -/
theorem findAll_eq_map_readAll (code : Bytes) :
    findAll code =
      (Instruction.readAll.run code).map fun list => list.filterMap Instruction.stringSite? := by
  have all := Follows.run (Follows.untilEnd next_follows) code
  unfold findAll Instruction.readAll
  rw [all]
  cases (untilEnd Instruction.read).run code with
  | error e => rfl
  | ok list =>
    show Except.ok (List.filterMap id (list.map Instruction.stringSite?)) = Except.ok _
    rw [List.filterMap_map]
    rfl

/--
**The scan agrees with the full reading.** On code that is read, the scan finds
the position and the token of each string load, in order; on other code it fails
with the error of the reading.
-/
theorem scan_agrees_with_reading (code : Bytes) :
    match Instruction.readAll.run code with
    | .ok list => ∃ sites, findAll code = .ok sites ∧
        sites.map (fun site => (site.offset, some site.token)) =
          (list.filter Instruction.loadsString).map fun i => (i.offset, i.token?)
    | .error e => findAll code = .error e := by
  have all := findAll_eq_map_readAll code
  cases outcome : Instruction.readAll.run code with
  | error e => rw [outcome] at all; exact all
  | ok list =>
    rw [outcome] at all
    refine ⟨list.filterMap Instruction.stringSite?, all, ?_⟩
    apply Instruction.filterMap_stringSite?
    intro i mem isLoad
    exact ⟨_, (Instruction.readAll_loadsString outcome mem isLoad).2.2⟩

end StringSite

end ManagedImage
