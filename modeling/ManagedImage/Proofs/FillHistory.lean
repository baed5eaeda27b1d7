/-
Copies that are overwritten by any sequence of calls, of ranges that may overlap, be empty
or reversed, or end past the copy. What holds after a sequence is an invariant
(`RedactedImage.Follows`) that each call keeps, one that succeeds as well as one that is
refused: the last call that succeeded on a position decides its byte, and the ranges of
the calls that succeeded are listed once each.

The list has no range twice, but its ranges may overlap, and `patchedBytes` sums up their
lengths. The sum counts a position once for each range that it lies in
(`Span.sum_length_eq`), so it is no less than the count of the positions that were
overwritten, and no more only while no two different ranges meet
(`RedactedImage.patchedBytes_eq_card_iff`).

Main statements: `RedactedImage.fills_recorded`, `RedactedImage.patchedBytes_eq_card_iff`.
-/
import Mathlib.Algebra.Order.BigOperators.Group.Finset
import Mathlib.Combinatorics.Enumerative.DoubleCounting
import ManagedImage.Proofs.RedactionSelection

namespace ManagedImage

/-! ## Calls -/

/-- A call: a range, and the byte to overwrite it with. -/
structure Fill where
  range : Span
  filler : UInt8
deriving DecidableEq, Repr

namespace Fill

variable {f : Fill} {calls : List Fill} {pos : Nat}

/-- The range lies in a copy of `size` bytes. -/
def Fits (f : Fill) (size : Nat) : Prop := f.range.start ≤ f.range.stop ∧ f.range.stop ≤ size

instance (f : Fill) (size : Nat) : Decidable (f.Fits size) :=
  inferInstanceAs (Decidable (f.range.start ≤ f.range.stop ∧ f.range.stop ≤ size))

theorem not_fits_iff {size : Nat} :
    ¬ f.Fits size ↔ f.range.stop < f.range.start ∨ size < f.range.stop := by
  unfold Fits
  omega

/-- The last call on a position. -/
def last? (calls : List Fill) (pos : Nat) : Option Fill :=
  (calls.filter (pos ∈ ·.range)).getLast?

theorem last?_concat_of_mem (mem : pos ∈ f.range) : last? (calls ++ [f]) pos = some f := by
  rw [last?, List.filter_append, List.filter_singleton, decide_eq_true mem]
  exact List.getLast?_concat

theorem last?_concat_of_notMem (out : pos ∉ f.range) :
    last? (calls ++ [f]) pos = last? calls pos := by
  rw [last?, List.filter_append, List.filter_singleton, decide_eq_false out, cond_false,
    List.append_nil, last?]

end Fill

namespace RedactedImage

variable {data : Bytes} {r : RedactedImage} {f : Fill} {calls fills : List Fill}

/-- The copy after a call; a call that is refused leaves the copy as it was. -/
def afterFill (r : RedactedImage) (f : Fill) : RedactedImage :=
  (r.fill f.range f.filler).toOption.getD r

/-- The copy after a sequence of calls. -/
def afterFills (r : RedactedImage) (fills : List Fill) : RedactedImage := fills.foldl afterFill r

/-- The calls of a sequence that succeed, in order. -/
def succeeding (r : RedactedImage) : List Fill → List Fill
  | [] => []
  | f :: later =>
    match r.fill f.range f.filler with
    | .ok copy => f :: copy.succeeding later
    | .error _ => r.succeeding later

theorem fill_of_fits (fits : f.Fits r.data.size) :
    r.fill f.range f.filler =
      .ok ⟨r.data.overwrite f.filler f.range.start f.range.length, addOnce r.patched f.range⟩ :=
  if_pos fits

theorem fill_of_not_fits (fits : ¬ f.Fits r.data.size) :
    r.fill f.range f.filler = .error (.outOfBounds f.range.start f.range.length r.data.size) :=
  if_neg fits

theorem fill_fails_iff :
    (∃ e, r.fill f.range f.filler = .error e) ↔ ¬ f.Fits r.data.size := by
  by_cases fits : f.Fits r.data.size
  · simp [fill_of_fits fits, fits]
  · simp [fill_of_not_fits fits, fits]

theorem afterFill_of_fits (fits : f.Fits r.data.size) :
    r.afterFill f =
      ⟨r.data.overwrite f.filler f.range.start f.range.length, addOnce r.patched f.range⟩ := by
  rw [afterFill, fill_of_fits fits]
  rfl

theorem afterFill_of_not_fits (fits : ¬ f.Fits r.data.size) : r.afterFill f = r := by
  rw [afterFill, fill_of_not_fits fits]
  rfl

theorem succeeding_of_fits (fits : f.Fits r.data.size) :
    r.succeeding (f :: fills) = f :: (r.afterFill f).succeeding fills := by
  rw [succeeding, afterFill, fill_of_fits fits]
  rfl

theorem succeeding_of_not_fits (fits : ¬ f.Fits r.data.size) :
    r.succeeding (f :: fills) = r.succeeding fills := by
  rw [succeeding, fill_of_not_fits fits]

theorem afterFills_concat : r.afterFills (fills ++ [f]) = (r.afterFills fills).afterFill f :=
  List.foldl_concat ..

/-! ## What a sequence of calls leaves -/

theorem addOnce_eraseDups (spans : List Span) (span : Span) :
    addOnce spans.eraseDups span = (spans ++ [span]).eraseDups := by
  rw [addOnce, List.eraseDups_append, List.removeAll, List.filter_singleton]
  by_cases there : span ∈ spans
  · rw [if_pos (List.mem_eraseDups.2 there), List.elem_eq_true_of_mem there]
    exact (List.append_nil _).symm
  · have new : span ∉ spans.eraseDups := fun mem => there (List.mem_eraseDups.1 mem)
    have unseen : List.elem span spans = false := by simpa using there
    rw [if_neg new, unseen]
    rfl

theorem nodup_addOnce {patched : List Span} (distinct : patched.Nodup) (span : Span) :
    (addOnce patched span).Nodup := by
  unfold addOnce
  split
  case isTrue => exact distinct
  case isFalse new => exact List.nodup_append'.2 ⟨distinct, List.nodup_singleton _, by simpa using new⟩

/-- What a copy of `data` holds and lists after calls that succeeded. -/
structure Follows (data : Bytes) (calls : List Fill) (r : RedactedImage) : Prop where
  size_eq : r.data.size = data.size
  fits : ∀ f ∈ calls, f.Fits data.size
  byte_eq : ∀ pos, r.data[pos]? = ((Fill.last? calls pos).map Fill.filler).or data[pos]?
  patched_eq : r.patched = (calls.map Fill.range).eraseDups
  distinct : r.patched.Nodup

theorem follows_ofBytes (data : Bytes) : Follows data [] (ofBytes data) where
  size_eq := rfl
  fits := nofun
  byte_eq _ := rfl
  patched_eq := rfl
  distinct := List.nodup_nil

theorem Follows.afterFill (h : Follows data calls r) (fits : f.Fits r.data.size) :
    Follows data (calls ++ [f]) (r.afterFill f) := by
  rw [afterFill_of_fits fits]
  constructor
  case size_eq => rw [Bytes.size_overwrite, h.size_eq]
  case fits =>
    intro g mem
    rcases List.mem_append.1 mem with mem | mem
    · exact h.fits g mem
    · rw [List.mem_singleton.1 mem, ← h.size_eq]
      exact fits
  case byte_eq =>
    intro pos
    have within : pos ∈ f.range ↔ f.range.start ≤ pos ∧
        pos < f.range.start + f.range.length ∧ pos < r.data.size := by
      unfold Fill.Fits at fits
      rw [Span.mem_def, Span.length]
      omega
    rw [Bytes.getElem?_overwrite]
    by_cases mem : pos ∈ f.range
    · rw [if_pos (within.1 mem), Fill.last?_concat_of_mem mem]
      rfl
    · rw [if_neg (mt within.2 mem), Fill.last?_concat_of_notMem mem]
      exact h.byte_eq pos
  case patched_eq =>
    rw [h.patched_eq, List.map_append]
    exact addOnce_eraseDups _ _
  case distinct => exact nodup_addOnce h.distinct _

/-- A whole sequence. The calls that are refused leave no trace. -/
theorem Follows.afterFills (h : Follows data calls r) (fills : List Fill) :
    Follows data (calls ++ r.succeeding fills) (r.afterFills fills) := by
  induction fills generalizing calls r with
  | nil => rw [succeeding, List.append_nil]; exact h
  | cons f fills ih =>
    show Follows data _ ((r.afterFill f).afterFills fills)
    by_cases fits : f.Fits r.data.size
    · rw [succeeding_of_fits fits, List.append_cons]
      exact ih (h.afterFill fits)
    · rw [succeeding_of_not_fits fits, afterFill_of_not_fits fits]
      exact ih h

theorem follows_afterFills (data : Bytes) (fills : List Fill) :
    Follows data ((ofBytes data).succeeding fills) ((ofBytes data).afterFills fills) :=
  (follows_ofBytes data).afterFills fills

/--
**A copy keeps account of every sequence of calls.** It keeps its length. Each position
holds the byte of the last call that succeeded on it, or else its own. The list has the
ranges of the calls that succeeded, in the order of their first success and none of them
twice. The next call is refused exactly if its range is reversed or ends past the copy, and
then it leaves the copy as it is.
-/
theorem fills_recorded (data : Bytes) (fills : List Fill) :
    let copy := (ofBytes data).afterFills fills
    let calls := (ofBytes data).succeeding fills
    copy.data.size = data.size ∧
    (∀ pos, copy.data[pos]? =
      (((calls.filter (pos ∈ ·.range)).getLast?).map Fill.filler).or data[pos]?) ∧
    copy.patched = (calls.map Fill.range).eraseDups ∧ copy.patched.Nodup ∧
    ∀ f : Fill,
      ((∃ e, copy.fill f.range f.filler = .error e) ↔
        f.range.stop < f.range.start ∨ data.size < f.range.stop) ∧
      ∀ e, copy.fill f.range f.filler = .error e →
        e = .outOfBounds f.range.start f.range.length data.size ∧
        (ofBytes data).afterFills (fills ++ [f]) = copy := by
  have held := follows_afterFills data fills
  refine ⟨held.size_eq, held.byte_eq, held.patched_eq, held.distinct, fun f => ⟨?_, fun e failed => ?_⟩⟩
  · rw [fill_fails_iff, held.size_eq, Fill.not_fits_iff]
  · have fits := fill_fails_iff.1 ⟨e, failed⟩
    rw [fill_of_not_fits fits, held.size_eq] at failed
    rw [afterFills_concat, afterFill_of_not_fits fits]
    exact ⟨(Except.error.inj failed).symm, rfl⟩

/-- Two ranges that meet, a reversed one, one that ends past four bytes, and the first one again. -/
def mixedFills : List Fill :=
  [⟨⟨0, 2⟩, 7⟩, ⟨⟨3, 1⟩, 8⟩, ⟨⟨1, 3⟩, 9⟩, ⟨⟨2, 5⟩, 8⟩, ⟨⟨0, 2⟩, 7⟩]

theorem fills_recorded_mixed :
    let copy := (ofBytes #[1, 2, 3, 4]).afterFills mixedFills
    copy.data[1]? = some 7 ∧ copy.data[2]? = some 9 ∧ copy.data[3]? = some 4 ∧
      copy.patched = [⟨0, 2⟩, ⟨1, 3⟩] ∧ copy.fill ⟨3, 1⟩ 8 = .error (.outOfBounds 3 0 4) ∧
      (ofBytes #[1, 2, 3, 4]).afterFills (mixedFills ++ [⟨⟨3, 1⟩, 8⟩]) = copy := by
  obtain ⟨-, byte, listed, -, call⟩ := fills_recorded #[1, 2, 3, 4] mixedFills
  obtain ⟨e, failed⟩ := (call ⟨⟨3, 1⟩, 8⟩).1.2 (by decide)
  obtain ⟨rfl, kept⟩ := (call ⟨⟨3, 1⟩, 8⟩).2 e failed
  exact ⟨(byte 1).trans (by decide), (byte 2).trans (by decide), (byte 3).trans (by decide),
    listed.trans (by decide), failed, kept⟩

/-! ## How many bytes were overwritten -/

theorem patchedBytes_eq_sum (distinct : r.patched.Nodup) :
    r.patchedBytes = ∑ span ∈ r.patched.toFinset, span.length := by
  rw [List.sum_toFinset _ distinct, patchedBytes, List.sum_eq_foldl, List.foldl_map]

end RedactedImage

namespace Span

variable {spans : Finset Span} {size : Nat}

/-- The lengths of ranges count each position once for each range that it lies in. -/
theorem sum_length_eq (inside : ∀ span ∈ spans, span.stop ≤ size) :
    ∑ span ∈ spans, span.length =
      ∑ pos ∈ Finset.range size, (spans.filter fun span => pos ∈ span).card := by
  have within : ∀ span ∈ spans,
      span.length = (Finset.bipartiteAbove (fun span pos => pos ∈ span) (Finset.range size) span).card := by
    intro span mem
    have whole : Finset.bipartiteAbove (fun (span : Span) pos => pos ∈ span) (Finset.range size) span =
        Finset.Ico span.start span.stop := by
      have fits := inside span mem
      ext pos
      rw [Finset.mem_bipartiteAbove, Finset.mem_range, Finset.mem_Ico, Span.mem_def]
      omega
    rw [whole, Nat.card_Ico, length]
  rw [Finset.sum_congr rfl within]
  exact Finset.sum_card_bipartiteAbove_eq_sum_card_bipartiteBelow _

theorem card_filter_mem_le_one_iff {pos : Nat} :
    (spans.filter fun span => pos ∈ span).card ≤ 1 ↔
      ∀ a ∈ spans, ∀ b ∈ spans, pos ∈ a → pos ∈ b → a = b := by
  rw [Finset.card_le_one]
  simp only [Finset.mem_filter, and_imp]
  constructor
  · exact fun one a mem b mem' own own' => one a mem own b mem' own'
  · exact fun one a mem own b mem' own' => one a mem b mem' own own'

/-- The positions of ranges are those that lie in one at least. -/
theorem card_covered_eq {l : List Span} (listed : ∀ span, span ∈ l ↔ span ∈ spans) :
    (covered size l).card =
      ∑ pos ∈ Finset.range size, min 1 (spans.filter fun span => pos ∈ span).card := by
  simp only [covered, listed]
  rw [Finset.card_filter]
  refine Finset.sum_congr rfl fun pos _ => ?_
  have some : (∃ span ∈ spans, pos ∈ span) ↔ 0 < (spans.filter fun span => pos ∈ span).card := by
    rw [Finset.card_pos, Finset.filter_nonempty_iff]
  split
  case isTrue hit => exact (Nat.min_eq_left (some.1 hit)).symm
  case isFalse free => rw [Nat.eq_zero_of_not_pos (mt some.2 free), Nat.min_zero]

/-- Ranges have no fewer bytes than positions, and as many exactly if no two of them meet. -/
theorem card_covered_le_sum (inside : ∀ span ∈ spans, span.stop ≤ size) {l : List Span}
    (listed : ∀ span, span ∈ l ↔ span ∈ spans) :
    (covered size l).card ≤ ∑ span ∈ spans, span.length ∧
    (∑ span ∈ spans, span.length = (covered size l).card ↔
      ∀ pos, ∀ a ∈ spans, ∀ b ∈ spans, pos ∈ a → pos ∈ b → a = b) := by
  have each : ∀ pos ∈ Finset.range size, min 1 (spans.filter fun span => pos ∈ span).card ≤
      (spans.filter fun span => pos ∈ span).card := fun _ _ => Nat.min_le_right ..
  rw [card_covered_eq listed, sum_length_eq inside]
  refine ⟨Finset.sum_le_sum each, ?_⟩
  rw [eq_comm, Finset.sum_eq_sum_iff_of_le each]
  simp only [min_eq_right_iff]
  constructor
  · intro one pos a mem b mem' own own'
    have less : pos < size := Nat.lt_of_lt_of_le own.2 (inside a mem)
    exact card_filter_mem_le_one_iff.1 (one pos (Finset.mem_range.2 less)) a mem b mem' own own'
  · exact fun apart pos _ => card_filter_mem_le_one_iff.2 (apart pos)

end Span

namespace RedactedImage

/--
**When the count of overwritten bytes is that of positions.** After any sequence of calls it
is no less than the count of different positions that were overwritten. It is the same
exactly if no two different ranges of calls that succeeded meet.
-/
theorem patchedBytes_eq_card_iff (data : Bytes) (fills : List Fill) :
    let copy := (ofBytes data).afterFills fills
    let calls := (ofBytes data).succeeding fills
    let overwritten := Span.covered data.size (calls.map Fill.range)
    overwritten.card ≤ copy.patchedBytes ∧
    (copy.patchedBytes = overwritten.card ↔
      ∀ f ∈ calls, ∀ g ∈ calls, f.range ≠ g.range → ∀ pos ∈ f.range, pos ∉ g.range) := by
  have held := follows_afterFills data fills
  have listed : ∀ span, span ∈ ((ofBytes data).succeeding fills).map Fill.range ↔
      span ∈ ((ofBytes data).afterFills fills).patched.toFinset := by
    intro span
    rw [List.mem_toFinset, held.patched_eq, List.mem_eraseDups]
  have inside : ∀ span ∈ ((ofBytes data).afterFills fills).patched.toFinset,
      span.stop ≤ data.size := by
    intro span mem
    obtain ⟨f, call, rfl⟩ := List.mem_map.1 ((listed span).2 mem)
    exact (held.fits f call).2
  obtain ⟨least, exact_iff⟩ := Span.card_covered_le_sum inside listed
  rw [← patchedBytes_eq_sum held.distinct] at least exact_iff
  refine ⟨least, exact_iff.trans ?_⟩
  simp only [← listed, List.forall_mem_map]
  constructor
  · intro apart f mem g mem' other pos own own'
    exact other (apart pos f mem g mem' own own')
  · intro apart pos f mem g mem' own own'
    by_contra other
    exact apart f mem g mem' other pos own own'

/-- Two ranges that meet in one position. -/
def meetingFills : List Fill := [⟨⟨0, 2⟩, 0⟩, ⟨⟨1, 3⟩, 0⟩]

/-- Overwriting three bytes is counted as four. -/
theorem meetingFills_patchedBytes :
    (ofBytes #[0x41, 0x41, 0x41]).succeeding meetingFills = meetingFills ∧
    ((ofBytes #[0x41, 0x41, 0x41]).afterFills meetingFills).patchedBytes = 4 ∧
    (Span.covered 3 (meetingFills.map Fill.range)).card = 3 := by
  decide

end RedactedImage

end ManagedImage
