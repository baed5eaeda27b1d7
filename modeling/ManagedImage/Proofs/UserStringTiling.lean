/-
How the entries of a heap of user strings tile it. A walk is a sequence of
steps, each of which gives an item and moves on (`step`); it has no more items
than the heap has bytes, and they are those of `walk` (`Walks.items_eq`). The
entries stand one behind the other from the start of the heap, without gaps, up
to the end or to the first position where no entry can be decoded
(`Walks.covers`). An entry is its length, its payload and its flag, and nothing
else (`Fills`).
-/
import Mathlib.Data.List.Chain
import ManagedImage.Proofs.UserStringWalk

namespace ManagedImage

open Reader

namespace UserString

/-- The entry of a zero byte. -/
def blank (offset : Nat) : UserString := ⟨offset, 1, 0, #[], none⟩

/-- The parts of an entry follow each other in the bytes it was read from, and fill it. -/
structure Fills (s : UserString) (data : Bytes) : Prop where
  length_read : outcome Compressed.read data s.offset = .ok (s.length, s.payloadSpan.start)
  prefix_pos : 0 < s.prefixSize
  payload_eq : s.payload = data.extract s.payloadSpan.start s.payloadSpan.stop
  payload_even : s.payload.size % 2 = 0
  flag_of_empty : s.length = 0 → s.flag = none ∧ s.stop = s.payloadSpan.stop
  flag_of_text : s.length ≠ 0 → s.flag = data[s.payloadSpan.stop]? ∧ s.stop = s.payloadSpan.stop + 1
  stop_le_size : s.stop ≤ data.size

theorem fills_of_length {data : Bytes} {offset length start : Nat} {s : UserString}
    (number : outcome Compressed.read data offset = .ok (length, start)) (forward : offset < start)
    (inside : start ≤ data.size) (h : ofLength data offset length start = .ok s) :
    s.Fills data := by
  have back : offset + (start - offset) = start := by omega
  obtain ⟨rfl, rfl⟩ | ⟨odd, fits, rfl⟩ := ofLength_cases h
  · constructor <;> simp [payloadSpan, stop, size, back, number, inside]
    omega
  · have payload : (data.extract start (start + (length - 1))).size = length - 1 := by
      simp only [Array.size_extract]; omega
    have flag := @Bytes.getElem?_of_inside data (start + (length - 1)) (by omega)
    constructor <;> simp only [payloadSpan, stop, size, back, payload]
    case length_read => exact number
    case flag_of_text => exact fun _ => ⟨flag.symm, by omega⟩
    all_goals omega

end UserString

namespace UserStringHeap

variable {h : UserStringHeap} {offset : Nat} {s : UserString} {done : List UserString}
  {fault : Option Error}

theorem fills_of_get (found : h.get offset = .ok s) : s.Fills h.data := by
  by_cases inside : offset ≤ h.data.size
  · rw [get_of_inside inside, UserString.runAt_read] at found
    cases number : Compressed.read ⟨h.data, offset⟩ with
    | error e c => rw [outcome_of_error number] at found; cases found
    | ok length c =>
      have read := outcome_of_ok number
      rw [read] at found
      obtain ⟨rfl, fits⟩ := Compressed.read_eq_ok number
      have forward := Compressed.width_pos (h.data.getD offset 0)
      exact UserString.fills_of_length read (by simp only; omega) fits found
  · rw [get_of_outside inside] at found
    cases found

/-- A zero byte is an entry of its own. -/
theorem get_of_zero (zero : h.data[offset]? = some 0) : h.get offset = .ok (.blank offset) := by
  obtain ⟨inside, zero⟩ := Array.getElem?_eq_some_iff.1 zero
  have lead : h.data.getD offset 0 = 0 := by simp [Array.getD_eq_getD_getElem?, inside, zero]
  have number : Compressed.read ⟨h.data, offset⟩ = .ok 0 ⟨h.data, offset + 1⟩ := by
    rw [Compressed.read_of_lead (u8_of_fits (c := ⟨h.data, offset⟩) inside), lead]
    rfl
  rw [get_of_inside (Nat.le_of_lt inside), UserString.runAt_read, outcome_of_ok number]
  simp [Except.bind, UserString.ofLength, UserString.blank]

/-! ## The walk step by step -/

/-- What a walk gives at a position, and where it stands then. A fault is the last item. -/
def nextItem (h : UserStringHeap) (position : Nat) : Option (Except Error UserString × Nat) :=
  if position < h.data.size then
    match h.get position with
    | .ok s => some (.ok s, position + s.size)
    | .error e => some (.error e, h.data.size)
  else none

/-- The items of `n` steps from a position, fewer if the walk ends before. -/
def items (h : UserStringHeap) : Nat → Nat → List (Except Error UserString)
  | 0, _ => []
  | n + 1, position =>
    match h.nextItem position with
    | some (item, stop) => item :: h.items n stop
    | none => []

theorem nextItem_of_end (past : ¬ offset < h.data.size) : h.nextItem offset = none := by
  rw [nextItem, if_neg past]

theorem nextItem_of_error {e : Error} (inside : offset < h.data.size)
    (failed : h.get offset = .error e) : h.nextItem offset = some (.error e, h.data.size) := by
  rw [nextItem, if_pos inside, failed]

theorem nextItem_of_ok (inside : offset < h.data.size) (found : h.get offset = .ok s) :
    h.nextItem offset = some (.ok s, s.stop) := by
  rw [nextItem, if_pos inside, found, UserString.stop, (get_eq_ok found).1]

theorem items_of_end (past : ¬ offset < h.data.size) (n : Nat) : h.items n offset = [] := by
  cases n with
  | zero => rfl
  | succ n => rw [items, nextItem_of_end past]

/-- The items of a walk are its entries and then its fault, if any. -/
theorem Walks.items_eq (w : Walks h offset done fault) (n : Nat) :
    h.items n offset = (done.map Except.ok ++ fault.toList.map Except.error).take n := by
  induction w generalizing n with
  | finish past => simp [items_of_end past]
  | stuck inside failed =>
    cases n with
    | zero => rfl
    | succ n => simp [items, nextItem_of_error inside failed, items_of_end (Nat.lt_irrefl _)]
  | step inside found rest ih =>
    cases n with
    | zero => rfl
    | succ n => simp [items, nextItem_of_ok inside found, ih n]

theorem Walks.length_le (w : Walks h offset done fault) (inside : offset ≤ h.data.size) :
    offset + (done.length + fault.toList.length) ≤ h.data.size := by
  induction w with
  | finish => simpa using inside
  | stuck more failed =>
    simp only [List.length_nil, Option.toList_some, List.length_singleton]
    omega
  | step more found rest ih =>
    have forward := lt_stop found
    have later := ih (fills_of_get found).stop_le_size
    simp only [List.length_cons]
    omega

/-! ## The bytes that the entries cover -/

theorem Walks.head (w : Walks h offset done fault) (inside : offset < h.data.size)
    (found : h.get offset = .ok s) : done.head? = some s := by
  cases w with
  | finish past => exact absurd inside past
  | stuck _ failed => rw [found] at failed; cases failed
  | step _ found' _ => rw [found] at found'; cases found'; rfl

/-- Each entry begins where the one in front of it ends. -/
theorem Walks.chain (w : Walks h offset done fault) :
    done.IsChain fun s next => next.offset = s.stop := by
  induction w with
  | finish => exact .nil
  | stuck => exact .nil
  | step inside found rest ih =>
    cases rest with
    | finish => exact .singleton _
    | stuck => exact .singleton _
    | step _ found' _ => exact .cons_cons (get_eq_ok found').1 ih

/--
The entries cover the heap from where the walk begins, without gaps, up to the
end, or up to where the walk meets the fault that ends it.
-/
theorem Walks.covers (w : Walks h offset done fault) (inside : offset ≤ h.data.size) :
    ∃ covered, offset ≤ covered ∧ covered ≤ h.data.size ∧
      (∀ pos, offset ≤ pos ∧ pos < covered ↔ ∃ s ∈ done, s.offset ≤ pos ∧ pos < s.stop) ∧
      (fault = none → covered = h.data.size) ∧
      ∀ e, fault = some e → covered < h.data.size ∧ h.get covered = .error e := by
  induction w with
  | @finish offset past =>
    refine ⟨offset, Nat.le_refl _, inside, fun pos => ?_, fun _ => by omega, nofun⟩
    simp only [List.not_mem_nil, false_and, exists_false, iff_false]
    omega
  | @stuck offset e more failed =>
    refine ⟨offset, Nat.le_refl _, inside, fun pos => ?_, nofun, ?_⟩
    · simp only [List.not_mem_nil, false_and, exists_false, iff_false]
      omega
    · rintro e' ⟨rfl⟩
      exact ⟨more, failed⟩
  | @step offset s later fault more found rest ih =>
    have forward := lt_stop found
    obtain ⟨covered, order, fits, tiles, finished, stuck⟩ := ih (fills_of_get found).stop_le_size
    obtain ⟨rfl, -⟩ := get_eq_ok found
    refine ⟨covered, by omega, fits, fun pos => ?_, finished, stuck⟩
    rw [List.exists_mem_cons_iff, ← tiles pos]
    omega

variable {data : Bytes}

theorem ofBytes_eq_ok : ofBytes data = .ok h ↔ h.data = data ∧ data[0]? = some 0 := by
  obtain ⟨bytes⟩ := h
  unfold ofBytes
  split
  · next first => simp [first, eq_comm]
  · next other => simp [other]

/--
**The entries of a heap tile it.** A walk has no more items than the heap has
bytes, however many steps it is given: the entries, and behind them the fault,
if there is one. The first entry stands at the start of the heap and each other
one where the one in front of it ends, so that they are disjoint and cover the
heap without gaps, up to its end if there is no fault, and otherwise up to the
position whose look-up is the fault. Each entry is its length, its payload and
its flag.
-/
theorem walk_tiles (opened : ofBytes data = .ok h) :
    (∀ n, h.items n 0 =
      (h.walk.done.map Except.ok ++ h.walk.fault.toList.map Except.error).take n) ∧
    h.walk.done.length + h.walk.fault.toList.length ≤ data.size ∧
    h.walk.done.head? = some (.blank 0) ∧
    h.walk.done.IsChain (fun s next => next.offset = s.stop) ∧
    h.walk.done.Pairwise (fun s later => s.offset < later.offset ∧ s.stop ≤ later.offset) ∧
    (∀ s ∈ h.walk.done, s.Fills data) ∧
    ∃ covered ≤ data.size,
      (∀ pos, pos < covered ↔ ∃ s ∈ h.walk.done, s.offset ≤ pos ∧ pos < s.stop) ∧
      (h.walk.fault = none → covered = data.size) ∧
      ∀ e, h.walk.fault = some e → covered < data.size ∧ h.get covered = .error e := by
  obtain ⟨rfl, first⟩ := ofBytes_eq_ok.1 opened
  have walked := h.walk_walks
  obtain ⟨covered, -, fits, tiles, finished, stuck⟩ := walked.covers (Nat.zero_le _)
  refine ⟨walked.items_eq, ?_, ?_, walked.chain, ?_, ?_,
    covered, fits, ?_, finished, stuck⟩
  · have count := walked.length_le (Nat.zero_le _)
    omega
  · exact walked.head (Array.getElem?_eq_some_iff.1 first).1 (get_of_zero first)
  · refine walked.ordered.imp_of_mem fun mem _ before => ⟨?_, before⟩
    exact Nat.lt_of_lt_of_le (lt_stop (get_of_mem_walk mem)) before
  · exact fun s mem => fills_of_get (get_of_mem_walk mem)
  · simpa using tiles

/--
A heap of two empty entries, of which the second has a length in the wide form,
and of a string `A`; its last byte is the length of an entry without a flag.
-/
def raggedHeap : Bytes := #[0, 0x80, 0, 3, 0x41, 0, 0, 4]

theorem walk_tiles_ragged :
    ∃ h, ofBytes raggedHeap = .ok h ∧
      h.walk.done.map (fun s => (s.offset, s.stop)) = [(0, 1), (1, 3), (3, 7)] ∧
      h.walk.fault = some (.malformed (.evenUserString 7 4)) ∧
      h.walk.done.length + h.walk.fault.toList.length ≤ raggedHeap.size ∧
      h.walk.done.IsChain (fun s next => next.offset = s.stop) ∧
      ∀ s ∈ h.walk.done, s.Fills raggedHeap := by
  obtain ⟨-, count, -, chain, -, fills, -⟩ :=
    walk_tiles (show ofBytes raggedHeap = .ok ⟨raggedHeap⟩ from rfl)
  exact ⟨⟨raggedHeap⟩, rfl, by decide, by decide, count, chain, fills⟩

end UserStringHeap
end ManagedImage
