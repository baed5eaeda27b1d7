/-
Copies of an image with ranges overwritten. A copy keeps its length; it
remembers each range that was overwritten, once, in the order in which they were
first overwritten. A range that is reversed or ends past the copy is refused and
changes nothing.

Main statements: overwriting keeps the length (`size_overwrite`) and changes the
bytes of its range and no other (`getElem?_overwrite`).
-/
import ManagedImage.Image
import ManagedImage.Redaction.Config
import ManagedImage.Redaction.Report

namespace ManagedImage

namespace Bytes

/-- The bytes with `n` of them replaced by `filler`, from `pos` on. -/
def overwrite (filler : UInt8) (data : Bytes) (pos : Nat) : Nat → Bytes
  | 0 => data
  | n + 1 => overwrite filler (data.setIfInBounds pos filler) (pos + 1) n

@[simp] theorem size_overwrite (filler : UInt8) (data : Bytes) (pos n : Nat) :
    (overwrite filler data pos n).size = data.size := by
  induction n generalizing data pos with
  | zero => rfl
  | succ n ih => rw [overwrite, ih, Array.size_setIfInBounds]

theorem getElem?_overwrite (filler : UInt8) (data : Bytes) (pos n i : Nat) :
    (overwrite filler data pos n)[i]? =
      if pos ≤ i ∧ i < pos + n ∧ i < data.size then some filler else data[i]? := by
  induction n generalizing data pos with
  | zero => rw [overwrite, if_neg (by omega)]
  | succ n ih =>
    rw [overwrite, ih, Array.size_setIfInBounds, Array.getElem?_setIfInBounds]
    by_cases here : pos = i
    · subst here
      rw [if_neg (by omega), if_pos rfl]
      by_cases inside : pos < data.size
      · rw [if_pos inside, if_pos (by omega)]
      · rw [if_neg inside, if_neg (by omega), Array.getElem?_eq_none (by omega)]
    · rw [if_neg here]
      by_cases within : pos ≤ i ∧ i < pos + (n + 1) ∧ i < data.size
      · rw [if_pos within, if_pos (by omega)]
      · rw [if_neg within, if_neg (by omega)]

end Bytes

/-- A copy of an image and the ranges that were overwritten in it. -/
structure RedactedImage where
  data : Bytes
  patched : List Span
deriving DecidableEq

namespace RedactedImage

/-- An untouched copy. -/
def ofBytes (data : Bytes) : RedactedImage := ⟨data, []⟩

/-- Overwrites a range. -/
def fill (r : RedactedImage) (range : Span) (filler : UInt8) : Except Error RedactedImage :=
  if range.start ≤ range.stop ∧ range.stop ≤ r.data.size then
    .ok {
      data := r.data.overwrite filler range.start range.length
      patched := if range ∈ r.patched then r.patched else r.patched ++ [range] }
  else .error (.outOfBounds range.start range.length r.data.size)

/-- The sum of the lengths of the overwritten ranges. -/
def patchedBytes (r : RedactedImage) : Nat := r.patched.foldl (fun n range => n + range.length) 0

end RedactedImage

namespace Image

/--
Overwrites the strings that have a load accepted by `accept`, each of them once,
in the order of the heap.
-/
def redactWhere (i : Image) (report : ScanReport) (config : ScanConfig)
    (accept : StringLoad → Bool) : Except Error RedactedImage :=
  (StringLoad.firstPerEntry (report.loads.filter accept)).foldlM
    (fun copy load => copy.fill load.payload config.filler) (.ofBytes i.data)

/-- Overwrites every string of a report. -/
def redact (i : Image) (report : ScanReport) (config : ScanConfig) : Except Error RedactedImage :=
  i.redactWhere report config fun _ => true

end Image

end ManagedImage
