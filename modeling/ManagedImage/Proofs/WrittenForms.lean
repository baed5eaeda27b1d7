/-
Reading what was written. A list of bytes that stands in a vector at a position
(`Bytes.At`) is read there whatever stands around it. The form of a compressed
number is read as the number, and no byte behind it is passed over
(`Compressed.read_encode`).
-/
import ManagedImage.Compressed
import ManagedImage.Proofs.UserStringWalk

namespace ManagedImage

open Reader

namespace Bytes

/-- The bytes of a list stand in a vector from a position on. -/
def At (data : Bytes) (l : List UInt8) (pos : Nat) : Prop :=
  ∀ i, i < l.length → data[pos + i]? = l[i]?

instance (data : Bytes) (l : List UInt8) (pos : Nat) : Decidable (data.At l pos) :=
  inferInstanceAs (Decidable (∀ i, i < l.length → data[pos + i]? = l[i]?))

namespace At

variable {data : Bytes} {l l' : List UInt8} {byte : UInt8} {pos : Nat}

theorem append : data.At (l ++ l') pos ↔ data.At l pos ∧ data.At l' (pos + l.length) := by
  constructor
  · intro h
    refine ⟨fun i hi => ?_, fun i hi => ?_⟩
    · rw [h i (by simp; omega), List.getElem?_append_left hi]
    · rw [Nat.add_assoc, h (l.length + i) (by simp; omega), List.getElem?_append_right (by omega),
        Nat.add_sub_cancel_left]
  · rintro ⟨first, second⟩ i hi
    by_cases here : i < l.length
    · rw [first i here, List.getElem?_append_left here]
    · rw [List.length_append] at hi
      have there := second (i - l.length) (by omega)
      rwa [Nat.add_assoc, Nat.add_sub_cancel' (by omega), ← List.getElem?_append_right (by omega)] at there

theorem left (h : data.At (l ++ l') pos) : data.At l pos := (append.1 h).1

theorem right (h : data.At (l ++ l') pos) : data.At l' (pos + l.length) := (append.1 h).2

theorem head (h : data.At (byte :: l) pos) : data[pos]? = some byte := by simpa using h 0 (by simp)

theorem tail (h : data.At (byte :: l) pos) : data.At l (pos + 1) :=
  right (l := [byte]) h

theorem cons (first : data[pos]? = some byte) (rest : data.At l (pos + 1)) :
    data.At (byte :: l) pos := by
  intro i less
  cases i with
  | zero => exact first
  | succ i =>
    rw [Nat.add_comm i, ← Nat.add_assoc, Nat.add_comm 1, List.getElem?_cons_succ]
    exact rest i (Nat.lt_of_succ_lt_succ less)

theorem fits (h : data.At l pos) (ne : l ≠ []) : pos + l.length ≤ data.size := by
  have some := List.length_pos_iff.2 ne
  have last := h (l.length - 1) (by omega)
  rw [List.getElem?_eq_getElem (by omega)] at last
  have inside := (Array.getElem?_eq_some_iff.1 last).1
  omega

theorem extract (h : data.At l pos) (fits : pos + l.length ≤ data.size) :
    data.extract pos (pos + l.length) = l.toArray := by
  apply Array.ext_getElem?
  intro i
  have list : l.toArray[i]? = l[i]? := by simp
  rw [Array.getElem?_extract, Nat.min_eq_left fits, Nat.add_sub_cancel_left, list]
  split
  · next inside => exact h i inside
  · next outside => exact (List.getElem?_eq_none (by omega)).symm

theorem leNat {n value : Nat} (h : data.At (leBytes n value) pos) (small : value < capacity n) :
    data.leNat pos n = value := by
  induction n generalizing pos value with
  | zero => rw [capacity] at small; rw [leNat_zero]; omega
  | succ n ih =>
    rw [capacity] at small
    have first : data.getD pos 0 = UInt8.ofNat (value % 256) := by
      rw [Array.getD_eq_getD_getElem?, h.head, Option.getD_some]
    have later := ih h.tail (by omega)
    rw [leNat_succ, first, later, UInt8.toNat_ofNat']
    omega

end At

/-- The digits of the number in a field are the bytes that stand there. -/
theorem at_leBytes_leNat {data : Bytes} {pos n : Nat} (fits : pos + n ≤ data.size) :
    data.At (leBytes n (data.leNat pos n)) pos := by
  induction n generalizing pos with
  | zero => exact nofun
  | succ n ih =>
    have low : (data.getD pos 0).toNat < 256 := UInt8.toNat_lt _
    have first : UInt8.ofNat (data.leNat pos (n + 1) % 256) = data.getD pos 0 := by
      rw [leNat_succ, show ∀ high, ((data.getD pos 0).toNat + 256 * high) % 256 =
        (data.getD pos 0).toNat by omega, UInt8.ofNat_toNat]
    have rest : data.leNat pos (n + 1) / 256 = data.leNat (pos + 1) n := by
      rw [leNat_succ]
      omega
    rw [leBytes, first, rest]
    exact At.cons (getElem?_of_inside (by omega)) (ih (by omega))

theorem at_leBytes_iff {data : Bytes} {pos n value : Nat} (fits : pos + n ≤ data.size)
    (small : value < capacity n) : data.At (leBytes n value) pos ↔ data.leNat pos n = value := by
  constructor
  · exact fun stands => stands.leNat small
  · rintro rfl
    exact at_leBytes_leNat fits

theorem at_toArray (l : List UInt8) : Bytes.At l.toArray l 0 := fun i _ => by simp

theorem at_append (p l s : List UInt8) : Bytes.At (p ++ l ++ s).toArray l p.length := by
  have whole := at_toArray (p ++ l ++ s)
  have behind := whole.left.right
  rwa [Nat.zero_add] at behind

end Bytes

theorem BuiltHeap.at_ofItems {α : Type} {form : α → List UInt8} {items : List α} {item : α} {k : Nat}
    (there : items[k]? = some item) :
    (ofItems form items).data.At (form item) (ofItems form (items.take k)).data.size := by
  have whole : (ofItems form items).data = ((ofItems form (items.take k)).data.toList ++ form item ++
      (items.drop (k + 1)).flatMap form).toArray := by
    apply Array.toList_inj.1
    rw [ofItems_of_getElem? there, data_appendAll, append, Array.toList_appendList]
  rw [whole, ← Array.length_toList]
  exact Bytes.at_append _ (form item) _

theorem Reader.u8_of_at {c : Cursor} {byte : UInt8} {l : List UInt8} (h : c.data.At (byte :: l) c.pos) :
    u8 c = .ok byte { c with pos := c.pos + 1 } := by
  obtain ⟨inside, here⟩ := Array.getElem?_eq_some_iff.1 h.head
  rw [u8_of_fits inside, Array.getD_eq_getD_getElem?, h.head, Option.getD_some]

theorem Reader.take_of_at {c : Cursor} {l : List UInt8} (h : c.data.At l c.pos)
    (fits : c.pos + l.length ≤ c.data.size) :
    take l.length c = .ok l.toArray { c with pos := c.pos + l.length } := by
  rw [take_of_fits (by simp only [Cursor.remaining]; omega), h.extract fits]

namespace Compressed

theorem length_encode (n : Nat) :
    (encode n).length = if n < 0x80 then 1 else if n < 0x4000 then 2 else 4 := by
  unfold encode
  split
  · rfl
  · split <;> rfl

theorem length_encode_of_long {n : Nat} (long : 0x4000 ≤ n) : (encode n).length = 4 := by
  rw [length_encode, if_neg (by omega), if_neg (by omega)]

section ReadRest

variable {c : Cursor} {lead b₁ b₂ b₃ : UInt8} (start : Nat)

theorem readRest_one (high : lead.toNat < 0x80) : readRest start lead c = .ok lead.toNat c := by
  rw [readRest, if_pos (UInt8.lt_iff_toNat_lt.2 high)]
  rfl

theorem readRest_two (low : 0x80 ≤ lead.toNat) (high : lead.toNat < 0xC0) (h : c.data.At [b₁] c.pos) :
    readRest start lead c = .ok ((lead.toNat - 0x80) * 256 + b₁.toNat) { c with pos := c.pos + 1 } := by
  have notOne : ¬ lead < 0x80 := fun lt => Nat.not_lt_of_le low (UInt8.lt_iff_toNat_lt.1 lt)
  rw [readRest, if_neg notOne, if_pos (UInt8.lt_iff_toNat_lt.2 high), bind_of_ok (u8_of_at h)]
  rfl

theorem readRest_four (low : 0xC0 ≤ lead.toNat) (high : lead.toNat < 0xE0)
    (h : c.data.At [b₁, b₂, b₃] c.pos) :
    readRest start lead c =
      .ok ((((lead.toNat - 0xC0) * 256 + b₁.toNat) * 256 + b₂.toNat) * 256 + b₃.toNat)
        { c with pos := c.pos + 3 } := by
  have notTwo : ¬ lead < 0xC0 := fun lt => Nat.not_lt_of_le low (UInt8.lt_iff_toNat_lt.1 lt)
  have notOne : ¬ lead < 0x80 := fun lt => notTwo (UInt8.lt_trans lt (by decide))
  have three : take 3 c = .ok #[b₁, b₂, b₃] _ := take_of_at h (h.fits (by simp))
  rw [readRest, if_neg notOne, if_neg notTwo, if_pos (UInt8.lt_iff_toNat_lt.2 high), bind_of_ok three]
  rfl

end ReadRest

/-- The form of a number is read as the number. -/
theorem read_encode {n : Nat} (small : n < limit) {c : Cursor} (h : c.data.At (encode n) c.pos) :
    read c = .ok n { c with pos := c.pos + (encode n).length } := by
  have byte : ∀ m < 256, (UInt8.ofNat m).toNat = m := fun m lt => by rw [UInt8.toNat_ofNat']; omega
  unfold limit at small
  unfold encode at h ⊢
  split at h
  · next one =>
    have lead := byte n (by omega)
    rw [if_pos one, read_of_lead (u8_of_at h), readRest_one _ (by omega), lead]
    rfl
  · next notOne =>
    split at h
    · next two =>
      have lead := byte (0x80 + n / 256) (by omega)
      have value : (0x80 + n / 256 - 0x80) * 256 + n % 256 = n := by omega
      rw [if_neg notOne, if_pos two, read_of_lead (u8_of_at h),
        readRest_two _ (by omega) (by omega) h.tail, lead, byte (n % 256) (by omega), value]
      rfl
    · next four =>
      have lead := byte (0xC0 + n / 0x1000000) (by omega)
      have value : (((0xC0 + n / 0x1000000 - 0xC0) * 256 + n / 0x10000 % 256) * 256 +
          n / 0x100 % 256) * 256 + n % 256 = n := by omega
      rw [if_neg notOne, if_neg four, read_of_lead (u8_of_at h),
        readRest_four _ (by omega) (by omega) h.tail, lead, byte (n / 0x10000 % 256) (by omega),
        byte (n / 0x100 % 256) (by omega), byte (n % 256) (by omega), value]
      rfl

end Compressed

end ManagedImage
