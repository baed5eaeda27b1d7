/-
The heap of user strings on the machine. The bits of a compressed number are put
together by shifts; the size of its length, the end of an entry and the range of
a payload are sums and differences of positions. All of these are bounded by the
size of the heap, for an entry that was read stands in it (`StandsIn`).
-/
import Mathlib.Data.List.Basic
import ManagedImage.Proofs.Machine.Readings
import ManagedImage.Proofs.UserStringWalk

namespace ManagedImage

namespace Machine

open Programmed (program faithful keeps)

/-! ## Compressed numbers -/

/--
A compressed number. The bits of its bytes are put together by shifts, and the
three bytes behind the first of a long form are fetched one by one.
-/
def compressed : Reading Nat := do
  let lead ← program Reader.u8
  if lead < 0x80 then return lead.toNat
  else if lead < 0xC0 then
    let second ← program Reader.u8
    let high ← shiftUp 32 (lead.toNat &&& 0x3F) 8
    return high ||| second.toNat
  else if lead < 0xE0 then
    let rest ← program (Reader.take 3)
    let high ← shiftUp 32 (lead.toNat &&& 0x1F) 24
    let middle ← shiftUp 32 (← fetch rest.toList 0).toNat 16
    let low ← shiftUp 32 (← fetch rest.toList 1).toNat 8
    return high ||| middle ||| low ||| (← fetch rest.toList 2).toNat
  else
    let start ← sub (← get).pos 1
    throw (.refused (.malformed (.compressedLead lead start)))

/-- Bits put below others that were moved out of the way. -/
theorem shiftUp_or {a b k : Nat} (low : b < 2 ^ k) : a <<< k ||| b = a * 2 ^ k + b := by
  rw [← Nat.shiftLeft_add_eq_or_of_lt low, Nat.shiftLeft_eq]

theorem exists_of_take_three {c c' : Cursor} {rest : Bytes} (h : Reader.take 3 c = .ok rest c') :
    ∃ x y z, rest = #[x, y, z] := by
  obtain ⟨x, y, z, same⟩ := List.length_eq_three.1 (Array.length_toList.trans (size_of_take h))
  exact ⟨x, y, z, Array.toList_inj.1 same⟩

theorem compressed_faithful {c : Cursor} (sound : c.Addressable) :
    compressed c = ended (Compressed.read c) := by
  rw [Compressed.read, Reader.bind_of_ok (Reader.position_ok c)]
  refine bind_program sound fun {lead c₁} first sound₁ => ?_
  obtain ⟨-, -, moved⟩ := Reader.u8_keeps first
  by_cases short : lead < 0x80
  · rw [if_pos short, if_pos short]
    rfl
  rw [if_neg short, if_neg short]
  have short : ¬ lead.toNat < 0x80 := short
  by_cases medium : lead < 0xC0
  · rw [if_pos medium, if_pos medium]
    have medium : lead.toNat < 0xC0 := medium
    refine bind_program sound₁ fun {second c₂} _ _ => ?_
    have bits : lead.toNat &&& 0x3F = lead.toNat - 0x80 := by
      rw [Nat.and_two_pow_sub_one_eq_mod lead.toNat 6]
      omega
    rw [bits, lift_bind (shiftUp_eq (by decide) (by rw [Nat.shiftLeft_eq]; omega)),
      shiftUp_or second.toNat_lt]
    rfl
  rw [if_neg medium, if_neg medium]
  have medium : ¬ lead.toNat < 0xC0 := medium
  by_cases long : lead < 0xE0
  · rw [if_pos long, if_pos long]
    have long : lead.toNat < 0xE0 := long
    refine bind_program sound₁ fun {rest c₂} taken _ => ?_
    obtain ⟨x, y, z, rfl⟩ := exists_of_take_three taken
    have bits : lead.toNat &&& 0x1F = lead.toNat - 0xC0 := by
      rw [Nat.and_two_pow_sub_one_eq_mod lead.toNat 5]
      omega
    have x_lt := x.toNat_lt
    have y_lt := y.toNat_lt
    have z_lt := z.toNat_lt
    rw [bits, lift_bind (shiftUp_eq (by decide) (by rw [Nat.shiftLeft_eq]; omega)),
      lift_bind (fetch_eq rfl), lift_bind (shiftUp_eq (by decide) (by rw [Nat.shiftLeft_eq]; omega)),
      lift_bind (fetch_eq rfl), lift_bind (shiftUp_eq (by decide) (by rw [Nat.shiftLeft_eq]; omega)),
      lift_bind (fetch_eq rfl)]
    have value : ((lead.toNat - 0xC0) <<< 24 ||| x.toNat <<< 16 ||| y.toNat <<< 8 ||| z.toNat) =
        Bytes.beNat (lead.toNat - 0xC0) #[x, y, z] := by
      rw [Nat.or_assoc, Nat.or_assoc, shiftUp_or (b := z.toNat) z_lt,
        shiftUp_or (b := y.toNat * 2 ^ 8 + z.toNat) (by omega),
        shiftUp_or (b := x.toNat * 2 ^ 16 + (y.toNat * 2 ^ 8 + z.toNat)) (by omega)]
      simp only [Bytes.beNat, List.foldl_toArray, List.foldl_cons, List.foldl_nil]
      omega
    rw [value]
    rfl
  · rw [if_neg long, if_neg long]
    -- The first byte was passed over, so there is a position in front.
    have behind : 1 ≤ c₁.pos := by rw [moved]; exact Nat.le_add_left ..
    rw [Reader.bind_of_ok (Reader.get_ok c₁), lift_bind (sub_eq behind)]
    have start : c₁.pos - 1 = c.pos := by rw [moved]; rfl
    rw [start]
    rfl

instance : Programmed Compressed.read where
  program := compressed
  faithful := compressed_faithful
  keeps h sound := by
    obtain ⟨same, inside⟩ := Compressed.read_eq_ok h
    have data := congrArg Cursor.data same
    exact ⟨by rw [data]; exact inside, by rw [data]; exact sound.short⟩

/-! ## Entries -/

/-- The entry at the position of the cursor. -/
def userString : Reading UserString := do
  let offset ← program Reader.position
  let length ← program Compressed.read
  let prefixSize ← sub (← program Reader.position) offset
  if length = 0 then return { offset, prefixSize, length, payload := #[], flag := none }
  if length % 2 = 0 then throw (.refused (.malformed (.evenUserString offset length)))
  let size ← sub length 1
  let payload ← program (Reader.take size)
  let flag ← program Reader.u8
  return { offset, prefixSize, length, payload, flag := some flag }

theorem userString_faithful {c : Cursor} (sound : c.Addressable) :
    userString c = ended (UserString.read c) := by
  refine bind_position (bind_program sound fun {length c₁} number sound₁ => bind_position ?_)
  have order : c.pos ≤ c₁.pos := by
    obtain ⟨rfl, -⟩ := Compressed.read_eq_ok number
    exact Nat.le_add_right ..
  rw [lift_bind (sub_eq order)]
  by_cases empty : length = 0
  · rw [if_pos empty, if_pos empty]
    rfl
  rw [if_neg empty, if_neg empty]
  by_cases even : length % 2 = 0
  · rw [if_pos even, if_pos even]
    rfl
  rw [if_neg even, if_neg even, lift_bind (sub_eq (Nat.pos_of_ne_zero empty))]
  refine bind_program sound₁ fun _ sound₂ => ?_
  exact bind_program sound₂ fun _ _ => rfl

/-- The entry at a position of a heap. -/
def entryAt (h : UserStringHeap) (offset : Nat) : Run UserString :=
  (do program (Reader.seek offset); userString : Reading UserString).runAt h.data 0

theorem entryAt_eq {h : UserStringHeap} (short : h.data.size < 2 ^ 63) (offset : Nat) :
    entryAt h offset = Run.of (h.get offset) := by
  refine runAt_of_ended (bind_program (Cursor.addressable_start short) fun _ sound => ?_)
  exact userString_faithful sound

/-! ## The walk -/

/-- The position behind an entry that stands at `offset`. -/
def behind (offset : Nat) (s : UserString) : Run Nat := do
  let total ← add 64 s.prefixSize s.length
  add 64 offset total

/-- The entries from a position on, behind those already `seen`. -/
def walkFrom (h : UserStringHeap) : Nat → Nat → Array UserString → Run (Progress Error UserString)
  | 0, _, seen => return ⟨seen.toList, none⟩
  | fuel + 1, offset, seen =>
    if offset < h.data.size then do
      match ← attempt (entryAt h offset) with
      | .ok entry => walkFrom h fuel (← behind offset entry) (seen.push entry)
      | .error e => return ⟨seen.toList, some e⟩
    else return ⟨seen.toList, none⟩

/-- The entries of a heap. -/
def walk (h : UserStringHeap) : Run (Progress Error UserString) := walkFrom h h.data.size 0 #[]

section Walk

variable {h : UserStringHeap} {s : UserString}

theorem behind_eq (short : h.data.size < 2 ^ 63) (stands : s.StandsIn h.data) :
    behind s.offset s = .ok s.stop := by
  have inside := stands.stop_le_size
  rw [UserString.stop, UserString.size] at inside
  rw [behind, add_eq (by omega), ok_bind, add_eq (by omega)]
  rfl

theorem walkFrom_eq (short : h.data.size < 2 ^ 63) (fuel offset : Nat) (seen : Array UserString) :
    walkFrom h fuel offset seen = .ok (h.walkFrom fuel offset seen) := by
  induction fuel generalizing offset seen with
  | zero => rfl
  | succ fuel ih =>
    rw [walkFrom, UserStringHeap.walkFrom]
    split
    · rw [entryAt_eq short, attempt_of, ok_bind]
      cases found : h.get offset with
      | error e => rfl
      | ok s =>
        obtain ⟨rfl, stands⟩ := UserStringHeap.get_eq_ok found
        dsimp only
        rw [behind_eq short stands, ok_bind]
        exact ih ..
    · rfl

theorem walk_eq (short : h.data.size < 2 ^ 63) : walk h = .ok h.walk := walkFrom_eq short ..

end Walk

/-! ## Payloads -/

/-- The range of a payload in the heap. -/
def payloadSpan (s : UserString) : Run Span := do
  let start ← add 64 s.offset s.prefixSize
  return ⟨start, ← add 64 start s.payload.size⟩

/-- Whole chunks of two bytes; an odd byte at the end is in none. -/
def chunks : List UInt8 → List (List UInt8)
  | low :: high :: rest => [low, high] :: chunks rest
  | _ => []

/-- The code units of a payload. The bytes of a chunk are fetched from it. -/
def units (s : UserString) : Run (List UInt16) :=
  (chunks s.payload.toList).mapM fun chunk => do
    let low ← fetch chunk 0
    let high ← fetch chunk 1
    return UInt16.ofNat (low.toNat + 256 * high.toNat)

/-- The text of a payload. -/
def text (s : UserString) : Run String := do return String.ofList (Utf16.decode (← units s))

theorem payloadSpan_eq {s : UserString} {data : Bytes} (short : data.size < 2 ^ 63)
    (stands : s.StandsIn data) : payloadSpan s = .ok s.payloadSpan := by
  have inside := Nat.le_trans stands.payload_le_stop stands.stop_le_size
  rw [UserString.payloadSpan] at inside
  dsimp only at inside
  rw [payloadSpan, add_eq (by omega), ok_bind, add_eq (by omega)]
  rfl

theorem units_eq (s : UserString) : units s = .ok s.units := by
  rw [units, UserString.units]
  generalize s.payload.toList = bytes
  induction bytes using chunks.induct with
  | case1 low high rest ih =>
    rw [chunks, Utf16.unitsOfBytes, List.mapM_cons, ih]
    rfl
  | case2 bytes few =>
    rw [chunks, Utf16.unitsOfBytes]
    · rfl
    all_goals exact few

theorem text_eq (s : UserString) : text s = .ok s.text := by
  rw [text, units_eq]
  rfl

end Machine

end ManagedImage
