/-
The walk of the heap of user strings. The entries that it reaches stand one
behind the other (`Walks.ordered`), so the payload of one never meets the length
or the flag of another (`payload_apart`).

Where an entry ends depends on its length alone. Two heaps of one size that
differ in payloads only are therefore walked over the same entries, up to the
payloads, and to the same fault (`Walks.transfer`).
-/
import ManagedImage.Heap.UserStrings
import ManagedImage.Proofs.Readers

namespace ManagedImage

open Reader

/-! ## Length prefixes -/

namespace Compressed

/-- The count of bytes of a number that begins with `lead`, one if no number does. -/
def width (lead : UInt8) : Nat :=
  if lead < 0x80 then 1 else if lead < 0xC0 then 2 else if lead < 0xE0 then 4 else 1

theorem width_pos (lead : UInt8) : 0 < width lead := by
  unfold width
  repeat' split
  all_goals decide

/-- What is read behind the first byte of a number, which stands at `start`. -/
def readRest (start : Nat) (lead : UInt8) : Reader Nat := do
  if lead < 0x80 then return lead.toNat
  else if lead < 0xC0 then return Bytes.beNat (lead.toNat - 0x80) #[← Reader.u8]
  else if lead < 0xE0 then return Bytes.beNat (lead.toNat - 0xC0) (← Reader.take 3)
  else Reader.malformed (.compressedLead lead start)

theorem read_of_lead {c c₁ : Cursor} {lead : UInt8} (byte : u8 c = .ok lead c₁) :
    read c = readRest c.pos lead c₁ := by
  unfold read
  rw [bind_of_ok (position_ok c), bind_of_ok byte]
  rfl

theorem read_of_error {c c₁ : Cursor} {e : Error} (failed : u8 c = .error e c₁) :
    read c = .error e c₁ := by
  unfold read
  rw [bind_of_ok (position_ok c), bind_of_error failed]

theorem readRest_eq_ok {start n : Nat} {lead : UInt8} {c c' : Cursor}
    (h : readRest start lead c = .ok n c') (inside : c.pos ≤ c.data.size) :
    c' = { c with pos := c.pos + (width lead - 1) } ∧ c'.pos ≤ c.data.size := by
  unfold readRest at h
  unfold width
  split at h
  case isTrue small =>
    obtain ⟨-, rfl⟩ := pure_eq_ok.1 h
    rw [if_pos small]
    exact ⟨rfl, inside⟩
  case isFalse notSmall =>
    rw [if_neg notSmall]
    split at h
    case isTrue middle =>
      obtain ⟨second, c₂, byte, h⟩ := bind_eq_ok.1 h
      obtain ⟨fits, -, rfl⟩ := u8_keeps byte
      obtain ⟨-, rfl⟩ := pure_eq_ok.1 h
      rw [if_pos middle]
      exact ⟨rfl, fits⟩
    case isFalse notMiddle =>
      rw [if_neg notMiddle]
      split at h
      case isTrue large =>
        obtain ⟨bytes, c₂, three, h⟩ := bind_eq_ok.1 h
        obtain ⟨fits, -, rfl⟩ := take_keeps three
        obtain ⟨-, rfl⟩ := pure_eq_ok.1 h
        rw [if_pos large]
        simp only [Cursor.remaining] at fits
        exact ⟨rfl, by simp only; omega⟩
      case isFalse => cases h

theorem read_eq_ok {c c' : Cursor} {n : Nat} (h : read c = .ok n c') :
    c' = { c with pos := c.pos + width (c.data.getD c.pos 0) } ∧ c'.pos ≤ c.data.size := by
  cases byte : u8 c with
  | error e c₁ => rw [read_of_error byte] at h; cases h
  | ok lead c₁ =>
    rw [read_of_lead byte] at h
    obtain ⟨inside, value, rfl⟩ := u8_keeps byte
    obtain ⟨rfl, fits⟩ := readRest_eq_ok h inside
    refine ⟨?_, fits⟩
    have pos := width_pos lead
    rw [← value, Nat.add_assoc, Nat.add_sub_cancel' pos]

theorem reads_rest (start : Nat) (lead : UInt8) : Reads (readRest start lead) (width lead - 1) := by
  unfold readRest width
  split
  · exact reads_pure _ _
  · split
    · exact reads_u8.bind fun _ => reads_pure _ 0
    · split
      · exact (reads_take (show 0 < 3 by decide)).bind fun _ => reads_pure _ 0
      · exact reads_throw _ _

/-- Reading a number depends on its own bytes and on the size of the vector. -/
theorem read_congr {a b : Bytes} {pos : Nat} (size : a.size = b.size)
    (agree : a.Agree b pos (pos + width (a.getD pos 0))) :
    outcome read a pos = outcome read b pos := by
  have positive := width_pos (a.getD pos 0)
  by_cases inside : pos < a.size
  · have rest := reads_rest pos (a.getD pos 0) size
      (agree.mono (Nat.le_succ pos) (by omega) : a.Agree b (pos + 1) _)
    have first : a.getD pos 0 = b.getD pos 0 := agree.getD (Nat.le_refl _) (by omega)
    unfold outcome at rest ⊢
    rw [read_of_lead (u8_of_fits (c := ⟨a, pos⟩) inside),
      read_of_lead (u8_of_fits (c := ⟨b, pos⟩) (size ▸ inside))]
    dsimp only
    rw [← first]
    exact rest
  · rw [outcome_of_error (read_of_error (u8_of_lacks (c := ⟨a, pos⟩) inside)),
      outcome_of_error (read_of_error (u8_of_lacks (c := ⟨b, pos⟩) (size ▸ inside))), size]

end Compressed

/-! ## Entries -/

namespace UserString

/-- The bytes of the length. -/
def prefixSpan (s : UserString) : Span := ⟨s.offset, s.payloadSpan.start⟩

/-- The byte of the flag, none in an empty entry. -/
def flagSpan (s : UserString) : Span := ⟨s.payloadSpan.stop, s.stop⟩

/-- All of an entry but the bytes of its payload. -/
structure Shape where
  offset : Nat
  prefixSize : Nat
  length : Nat
  flag : Option UInt8
deriving DecidableEq, Repr

def shape (s : UserString) : Shape := ⟨s.offset, s.prefixSize, s.length, s.flag⟩

/-- The entry of a length that was read up to `start`. -/
def ofLength (data : Bytes) (offset length start : Nat) : Except Error UserString :=
  let stop := start + (length - 1)
  if length = 0 then .ok ⟨offset, start - offset, length, #[], none⟩
  else if length % 2 = 0 then .error (.malformed (.evenUserString offset length))
  else if data.size < stop then .error (.outOfBounds start (length - 1) data.size)
  else if data.size = stop then .error (.outOfBounds stop 1 data.size)
  else .ok ⟨offset, start - offset, length, data.extract start stop, some (data.getD stop 0)⟩

/-- An entry is its length and what the length makes of the bytes behind it. -/
theorem runAt_read (data : Bytes) (offset : Nat) :
    read.runAt data offset =
      (outcome Compressed.read data offset).bind fun (length, start) =>
        ofLength data offset length start := by
  unfold read runAt
  rw [bind_of_ok (position_ok _)]
  cases number : Compressed.read ⟨data, offset⟩ with
  | error e c => rw [bind_of_error number, outcome_of_error number]; rfl
  | ok length c =>
    obtain ⟨rfl, fits⟩ := Compressed.read_eq_ok number
    rw [bind_of_ok number, outcome_of_ok number, bind_of_ok (position_ok _)]
    show _ = ofLength data offset length _
    generalize offset + Compressed.width (data.getD offset 0) = start at fits ⊢
    dsimp only at fits ⊢
    unfold ofLength
    by_cases empty : length = 0
    · rw [if_pos empty, if_pos empty]
      rfl
    · rw [if_neg empty, if_neg empty]
      by_cases even : length % 2 = 0
      · rw [if_pos even, if_pos even]
        rfl
      · rw [if_neg even, if_neg even]
        by_cases short : data.size < start + (length - 1)
        · have lacks : ¬ length - 1 ≤ Cursor.remaining ⟨data, start⟩ := by
            simp only [Cursor.remaining]; omega
          rw [if_pos short, bind_of_error (take_of_lacks lacks)]
        · have enough : length - 1 ≤ Cursor.remaining ⟨data, start⟩ := by
            simp only [Cursor.remaining]; omega
          rw [if_neg short, bind_of_ok (take_of_fits enough)]
          by_cases last : data.size = start + (length - 1)
          · have lacks : ¬ start + (length - 1) < data.size := by omega
            rw [if_pos last, bind_of_error (u8_of_lacks lacks)]
          · have fits : start + (length - 1) < data.size := by omega
            rw [if_neg last, bind_of_ok (u8_of_fits fits)]
            rfl

/-- Where the parts of an entry stand in the bytes that it was read from. -/
structure StandsIn (s : UserString) (data : Bytes) : Prop where
  prefixSize_eq : s.prefixSize = Compressed.width (data.getD s.offset 0)
  payload_size : s.payload.size = s.length - 1
  stop_le_size : s.stop ≤ data.size

theorem StandsIn.payload_le_stop {s : UserString} {data : Bytes} (h : s.StandsIn data) :
    s.payloadSpan.stop ≤ s.stop := by
  have size := h.payload_size
  rw [stop_eq, payload_stop]
  omega

theorem offset_le_payload (s : UserString) : s.offset ≤ s.payloadSpan.start := Nat.le_add_right ..

theorem StandsIn.offset_lt_payload {s : UserString} {data : Bytes} (h : s.StandsIn data) :
    s.offset < s.payloadSpan.start := by
  have width := Compressed.width_pos (data.getD s.offset 0)
  rw [← h.prefixSize_eq] at width
  exact Nat.lt_add_of_pos_right width

theorem offset_le_stop (s : UserString) : s.offset ≤ s.stop := Nat.le_add_right ..

/-- An entry of length zero, or one with a payload and a flag behind it. -/
theorem ofLength_cases {data : Bytes} {offset length start : Nat} {s : UserString}
    (h : ofLength data offset length start = .ok s) :
    (length = 0 ∧ s = ⟨offset, start - offset, 0, #[], none⟩) ∨
      (length % 2 = 1 ∧ start + length ≤ data.size ∧
        s = ⟨offset, start - offset, length, data.extract start (start + (length - 1)),
          some (data.getD (start + (length - 1)) 0)⟩) := by
  unfold ofLength at h
  dsimp only at h
  split at h
  · next empty => cases h; subst empty; exact .inl ⟨rfl, rfl⟩
  split at h
  · cases h
  split at h
  · cases h
  split at h
  · cases h
  · cases h; exact .inr ⟨by omega, by omega, rfl⟩

theorem ofLength_eq_ok {data : Bytes} {offset length start : Nat} {s : UserString}
    (h : ofLength data offset length start = .ok s) (order : offset ≤ start)
    (inside : start ≤ data.size) :
    s.offset = offset ∧ s.payloadSpan.start = start ∧ s.payload.size = s.length - 1 ∧
      s.stop ≤ data.size := by
  have back : offset + (start - offset) = start := Nat.add_sub_cancel' order
  obtain ⟨rfl, rfl⟩ | ⟨-, fits, rfl⟩ := ofLength_cases h
  · exact ⟨rfl, back, rfl, by simp only [stop, size]; omega⟩
  · have payload : (data.extract start (start + (length - 1))).size = length - 1 := by
      rw [Array.size_extract]
      omega
    exact ⟨rfl, back, payload, by simp only [stop, size]; omega⟩

/-- Up to its payload, an entry depends on its length, its flag and the size of the heap. -/
theorem ofLength_congr {a b : Bytes} {offset length start : Nat} (sizes : a.size = b.size)
    (order : offset ≤ start)
    (flag : ∀ s, ofLength a offset length start = .ok s →
      a.Agree b s.flagSpan.start s.flagSpan.stop) :
    (ofLength a offset length start).map shape = (ofLength b offset length start).map shape := by
  unfold ofLength at flag ⊢
  dsimp only at flag ⊢
  rw [← sizes]
  split
  case isTrue => rfl
  case isFalse notEmpty =>
    split
    case isTrue => rfl
    case isFalse notEven =>
      split
      case isTrue => rfl
      case isFalse enough =>
        split
        case isTrue => rfl
        case isFalse notLast =>
          rw [if_neg notEmpty, if_neg notEven, if_neg enough, if_neg notLast] at flag
          have same : a.getD (start + (length - 1)) 0 = b.getD (start + (length - 1)) 0 := by
            refine (flag _ rfl).getD ?_ ?_
            · simp only [flagSpan, payloadSpan, Array.size_extract]; omega
            · simp only [flagSpan, stop, size]; omega
          show Except.ok (Shape.mk _ _ _ _) = Except.ok (Shape.mk _ _ _ _)
          rw [same]

/-- Where the payload of an entry stands shows in the rest of it. -/
theorem payloadSpan_of_shape {s s' : UserString} {data data' : Bytes} (stands : s.StandsIn data)
    (stands' : s'.StandsIn data') (h : s'.shape = s.shape) : s'.payloadSpan = s.payloadSpan := by
  simp only [shape, Shape.mk.injEq] at h
  simp only [payloadSpan, stands.payload_size, stands'.payload_size, h]

theorem stop_of_shape {s s' : UserString} (h : s'.shape = s.shape) : s'.stop = s.stop := by
  simp only [shape, Shape.mk.injEq] at h
  simp only [stop, size, h]

end UserString

namespace UserStringHeap

variable {h k : UserStringHeap} {offset : Nat} {s : UserString}

theorem get_of_inside (inside : offset ≤ h.data.size) :
    h.get offset = UserString.read.runAt h.data offset := by
  unfold get run runAt
  rw [bind_of_ok (show seek offset ⟨h.data, 0⟩ = .ok () ⟨h.data, offset⟩ by rw [seek, if_pos inside])]

theorem get_of_outside (outside : ¬ offset ≤ h.data.size) :
    h.get offset = .error (.outOfBounds offset 0 h.data.size) := by
  unfold get run runAt
  rw [bind_of_error (show seek offset ⟨h.data, 0⟩ = .error (.outOfBounds offset 0 h.data.size) _ by
    rw [seek, if_neg outside])]

/-- An entry that is found stands in the heap where it was looked for. -/
theorem get_eq_ok (found : h.get offset = .ok s) : s.offset = offset ∧ s.StandsIn h.data := by
  by_cases inside : offset ≤ h.data.size
  · rw [get_of_inside inside, UserString.runAt_read] at found
    cases number : Compressed.read ⟨h.data, offset⟩ with
    | error e c => rw [outcome_of_error number] at found; cases found
    | ok length c =>
      rw [outcome_of_ok number] at found
      obtain ⟨rfl, fits⟩ := Compressed.read_eq_ok number
      obtain ⟨rfl, start, payload, stop⟩ :=
        UserString.ofLength_eq_ok found (Nat.le_add_right ..) fits
      exact ⟨rfl, Nat.add_left_cancel start, payload, stop⟩
  · rw [get_of_outside inside] at found
    cases found

/-- What depends on the length of an entry is the same in two heaps that have the same length. -/
theorem get_map_congr {β : Type} {f : UserString → β} (size : h.data.size = k.data.size)
    (front : h.data.Agree k.data offset (offset + Compressed.width (h.data.getD offset 0)))
    (rest : ∀ length start, offset ≤ start →
      h.get offset = UserString.ofLength h.data offset length start →
      (UserString.ofLength h.data offset length start).map f =
        (UserString.ofLength k.data offset length start).map f) :
    (h.get offset).map f = (k.get offset).map f := by
  by_cases inside : offset ≤ h.data.size
  · rw [get_of_inside inside, UserString.runAt_read] at rest
    rw [get_of_inside inside, get_of_inside (size ▸ inside), UserString.runAt_read,
      UserString.runAt_read, ← Compressed.read_congr size front]
    cases number : Compressed.read ⟨h.data, offset⟩ with
    | error e c => rw [outcome_of_error number]; rfl
    | ok length c =>
      rw [outcome_of_ok number] at rest ⊢
      obtain ⟨rfl, fits⟩ := Compressed.read_eq_ok number
      exact rest length _ (Nat.le_add_right ..) rfl
  · rw [get_of_outside inside, get_of_outside (size ▸ inside), size]

/-- Two heaps with the same length and flag of an entry have the same entry, up to its payload. -/
theorem get_congr (size : h.data.size = k.data.size)
    (front : h.data.Agree k.data offset (offset + Compressed.width (h.data.getD offset 0)))
    (back : ∀ s, h.get offset = .ok s → h.data.Agree k.data s.flagSpan.start s.flagSpan.stop) :
    (h.get offset).map UserString.shape = (k.get offset).map UserString.shape :=
  get_map_congr size front fun _ _ order same =>
    UserString.ofLength_congr size order fun s found => back s (same.trans found)

/-- An entry is found again, up to its payload, in a heap that agrees on the rest of it. -/
theorem get_of_agree (found : h.get offset = .ok s) (size : h.data.size = k.data.size)
    (agree : ∀ i, offset ≤ i → i < s.stop → i ∉ s.payloadSpan → h.data[i]? = k.data[i]?) :
    (h.get offset).map UserString.shape = (k.get offset).map UserString.shape := by
  obtain ⟨rfl, stands⟩ := get_eq_ok found
  have order := stands.payload_le_stop
  apply get_congr size
  · intro i low high
    rw [← stands.prefixSize_eq] at high
    have before : i < s.payloadSpan.start := high
    have length : s.payloadSpan.start ≤ s.payloadSpan.stop := Nat.le_add_right ..
    exact agree i low (by omega) fun inside => absurd inside.1 (Nat.not_le_of_lt before)
  · intro s' found' i low high
    rw [found] at found'
    cases found'
    have behind : s.payloadSpan.stop ≤ i := low
    have before : s.offset ≤ s.payloadSpan.stop :=
      Nat.le_trans s.offset_le_payload (Nat.le_add_right ..)
    exact agree i (Nat.le_trans before behind) high fun inside =>
      absurd inside.2 (Nat.not_lt_of_le behind)

/-- Two heaps with the same length at a position both have an entry there, or fail alike. -/
theorem get_length_congr (size : h.data.size = k.data.size)
    (front : h.data.Agree k.data offset (offset + Compressed.width (h.data.getD offset 0))) :
    (h.get offset).map UserString.offset = (k.get offset).map UserString.offset := by
  refine get_map_congr size front fun length start _ _ => ?_
  unfold UserString.ofLength
  dsimp only
  rw [← size]
  repeat' split
  all_goals rfl

/-! ## Walks -/

/-- The entries from a position on, one behind the other, and the fault that ends them, if any. -/
inductive Walks (h : UserStringHeap) : Nat → List UserString → Option Error → Prop where
  | finish {offset : Nat} (past : ¬ offset < h.data.size) : Walks h offset [] none
  | stuck {offset : Nat} {e : Error} (inside : offset < h.data.size)
      (failed : h.get offset = .error e) : Walks h offset [] (some e)
  | step {offset : Nat} {s : UserString} {later : List UserString} {fault : Option Error}
      (inside : offset < h.data.size) (found : h.get offset = .ok s)
      (rest : Walks h s.stop later fault) : Walks h offset (s :: later) fault

variable {done done' : List UserString} {fault fault' : Option Error}

theorem Walks.det (w : Walks h offset done fault) (w' : Walks h offset done' fault') :
    done = done' ∧ fault = fault' := by
  induction w generalizing done' with
  | finish past =>
    cases w' with
    | finish => exact ⟨rfl, rfl⟩
    | stuck inside => exact absurd inside past
    | step inside => exact absurd inside past
  | stuck inside failed =>
    cases w' with
    | finish past => exact absurd inside past
    | stuck _ failed' => rw [failed] at failed'; cases failed'; exact ⟨rfl, rfl⟩
    | step _ found => rw [failed] at found; cases found
  | step inside found rest ih =>
    cases w' with
    | finish past => exact absurd inside past
    | stuck _ failed => rw [found] at failed; cases failed
    | step _ found' rest' =>
      rw [found] at found'
      cases found'
      obtain ⟨rfl, same⟩ := ih rest'
      exact ⟨rfl, same⟩

theorem lt_stop (found : h.get offset = .ok s) : offset < s.stop := by
  obtain ⟨rfl, stands⟩ := get_eq_ok found
  have positive := Compressed.width_pos (h.data.getD s.offset 0)
  rw [← stands.prefixSize_eq] at positive
  simp only [UserString.stop, UserString.size]
  omega

theorem walkFrom_walks (h : UserStringHeap) (fuel offset : Nat) (seen : Array UserString)
    (enough : h.data.size ≤ offset + fuel) :
    ∃ later fault, h.walkFrom fuel offset seen = ⟨seen.toList ++ later, fault⟩ ∧
      Walks h offset later fault := by
  induction fuel generalizing offset seen with
  | zero => exact ⟨[], none, by rw [walkFrom, List.append_nil], .finish (by omega)⟩
  | succ fuel ih =>
    rw [walkFrom]
    by_cases inside : offset < h.data.size
    · rw [if_pos inside]
      cases found : h.get offset with
      | error e => exact ⟨[], some e, by rw [List.append_nil], .stuck inside found⟩
      | ok s =>
        have forward := lt_stop found
        obtain ⟨later, fault, all, rest⟩ := ih s.stop (seen.push s) (by omega)
        refine ⟨s :: later, fault, ?_, .step inside found rest⟩
        dsimp only
        rw [all, Array.toList_push, List.append_assoc, List.singleton_append]
    · exact ⟨[], none, by rw [if_neg inside, List.append_nil], .finish inside⟩

theorem walk_walks (h : UserStringHeap) : Walks h 0 h.walk.done h.walk.fault := by
  obtain ⟨later, fault, all, rest⟩ := walkFrom_walks h h.data.size 0 #[] (Nat.le_add_left ..)
  rw [walk, all]
  exact rest

theorem Walks.mem (w : Walks h offset done fault) (mem : s ∈ done) :
    h.get s.offset = .ok s ∧ offset ≤ s.offset := by
  induction w with
  | finish => cases mem
  | stuck => cases mem
  | step inside found rest ih =>
    obtain ⟨rfl, -⟩ := get_eq_ok found
    rcases List.mem_cons.1 mem with rfl | behind
    · exact ⟨found, Nat.le_refl _⟩
    · obtain ⟨there, order⟩ := ih behind
      have forward := lt_stop found
      exact ⟨there, by omega⟩

theorem Walks.ordered (w : Walks h offset done fault) :
    done.Pairwise fun first second => first.stop ≤ second.offset := by
  induction w with
  | finish => exact .nil
  | stuck => exact .nil
  | step inside found rest ih => exact .cons (fun _ behind => (rest.mem behind).2) ih

/--
Two heaps of one size that agree everywhere but in the payloads of the entries
of a walk are walked over the same entries, up to their payloads, and to the
same fault.
-/
theorem Walks.transfer (w : Walks h offset done fault) (size : h.data.size = k.data.size)
    (agree : ∀ i, offset ≤ i → (∀ s ∈ done, i ∉ s.payloadSpan) → h.data[i]? = k.data[i]?) :
    ∃ done', Walks k offset done' fault ∧
      done'.map UserString.shape = done.map UserString.shape := by
  induction w with
  | finish past => exact ⟨[], .finish (size ▸ past), rfl⟩
  | @stuck offset e inside failed =>
    -- No payload stands behind the last entry, so the heaps agree from here on.
    have same := @get_congr h k offset size
      (fun i low _ => agree i low nofun) (fun s found => by rw [failed] at found; cases found)
    exact ⟨[], .stuck (size ▸ inside) (Except.error_of_map_eq same failed), rfl⟩
  | @step offset s later fault inside found rest ih =>
    obtain ⟨rfl, stands⟩ := get_eq_ok found
    have behind : ∀ s' ∈ later, s.stop ≤ s'.payloadSpan.start := fun s' mem =>
      Nat.le_trans (rest.mem mem).2 s'.offset_le_payload
    have own : s.payloadSpan.stop ≤ s.stop := stands.payload_le_stop
    have same := get_of_agree found size fun i low high free => by
      refine agree i low fun s' mem there => ?_
      rcases List.mem_cons.1 mem with rfl | mem
      · exact free there
      · exact absurd there.1 (Nat.not_le_of_lt (Nat.lt_of_lt_of_le high (behind s' mem)))
    obtain ⟨s', found', shape⟩ := Except.ok_of_map_eq same found
    have stop := UserString.stop_of_shape shape
    obtain ⟨later', rest', shapes⟩ := ih fun i low free => by
      refine agree i (Nat.le_trans s.offset_le_stop low) fun s' mem there => ?_
      rcases List.mem_cons.1 mem with rfl | mem
      · exact absurd there.2 (Nat.not_lt_of_le (Nat.le_trans own low))
      · exact free s' mem there
    rw [← stop] at rest'
    refine ⟨s' :: later', .step (size ▸ inside) found' rest', ?_⟩
    rw [List.map_cons, List.map_cons, shape, shapes]

/-! ## The entries of a heap -/

section Entries

variable {s' : UserString}

theorem get_of_mem_walk (mem : s ∈ h.walk.done) : h.get s.offset = .ok s :=
  (h.walk_walks.mem mem).1

theorem standsIn_of_mem_walk (mem : s ∈ h.walk.done) : s.StandsIn h.data :=
  (get_eq_ok (get_of_mem_walk mem)).2

/-- Two entries are one, or one stands behind the other. -/
theorem walk_apart (mem : s ∈ h.walk.done) (mem' : s' ∈ h.walk.done) :
    s = s' ∨ s.stop ≤ s'.offset ∨ s'.stop ≤ s.offset := by
  have order := h.walk_walks.ordered
  refine List.Pairwise.forall_of_forall_of_flip
    (R := fun a b => a = b ∨ a.stop ≤ b.offset ∨ b.stop ≤ a.offset)
    (fun _ _ => .inl rfl) ?_ ?_ mem mem'
  · exact order.imp fun before => .inr (.inl before)
  · exact order.imp fun before => .inr (.inr before)

/-- A byte of a payload belongs to no length and to no flag. -/
theorem payload_apart {i : Nat} (mem : s ∈ h.walk.done) (mem' : s' ∈ h.walk.done)
    (inside : i ∈ s.payloadSpan) : i ∉ s'.prefixSpan ∧ i ∉ s'.flagSpan := by
  have size := (standsIn_of_mem_walk mem).payload_size
  have size' := (standsIn_of_mem_walk mem').payload_size
  rcases walk_apart mem mem' with rfl | order | order
  all_goals
    simp only [Span.mem_def, UserString.payloadSpan, UserString.prefixSpan, UserString.flagSpan,
      UserString.stop, UserString.size] at *
    omega

end Entries

end UserStringHeap

end ManagedImage
