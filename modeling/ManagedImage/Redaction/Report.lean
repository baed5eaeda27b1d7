/-
The report of a scan: the string loads that were found, in the order of the
methods and of their code, and the methods that could not be scanned.

Several loads may be of one entry of the heap. `firstPerEntry` keeps the first
load of each entry, in the order of the heap.

Main statement: what is kept comes from the loads (`mem_of_mem_firstPerEntry`).
-/
import ManagedImage.Method.Bodies

namespace ManagedImage

/-- A string load and the entry that it loads. -/
structure StringLoad where
  rid : Nat
  method : Token
  /-- The position of the opcode in the file. -/
  instructionOffset : Nat
  token : Token
  /-- The position of the entry in the heap of user strings. -/
  entry : Nat
  /-- The range of the payload in the file. -/
  payload : Span
  flag : Option UInt8
  value : String
deriving DecidableEq, Repr

namespace StringLoad

/-- Drops each load whose entry is that of the load in front of it. -/
def dropRepeats : List StringLoad → List StringLoad
  | [] => []
  | load :: later => load :: (after load.entry later)
where
  /-- `dropRepeats` behind a load of `entry`. -/
  after (entry : Nat) : List StringLoad → List StringLoad
    | [] => []
    | load :: later =>
      if load.entry = entry then after entry later else load :: after load.entry later

/-- The first load of each entry, in the order of the heap. -/
def firstPerEntry (loads : List StringLoad) : List StringLoad :=
  dropRepeats (loads.mergeSort fun a b => a.entry ≤ b.entry)

theorem mem_of_mem_after {load : StringLoad} {entry : Nat} {loads : List StringLoad}
    (h : load ∈ dropRepeats.after entry loads) : load ∈ loads := by
  induction loads generalizing entry with
  | nil => simp [dropRepeats.after] at h
  | cons first later ih =>
    rw [dropRepeats.after] at h
    split at h
    · exact List.mem_cons_of_mem _ (ih h)
    · rcases List.mem_cons.1 h with rfl | h
      · exact List.mem_cons_self
      · exact List.mem_cons_of_mem _ (ih h)

theorem mem_of_mem_dropRepeats {load : StringLoad} {loads : List StringLoad}
    (h : load ∈ dropRepeats loads) : load ∈ loads := by
  cases loads with
  | nil => simp [dropRepeats] at h
  | cons first later =>
    rcases List.mem_cons.1 h with rfl | h
    · exact List.mem_cons_self
    · exact List.mem_cons_of_mem _ (mem_of_mem_after h)

theorem mem_of_mem_firstPerEntry {load : StringLoad} {loads : List StringLoad}
    (h : load ∈ firstPerEntry loads) : load ∈ loads :=
  List.mem_mergeSort.1 (mem_of_mem_dropRepeats h)

end StringLoad

/-- The result of a scan. -/
structure ScanReport where
  loads : List StringLoad
  /-- In the order of the methods. -/
  failures : List MethodFailure
  /-- The count of methods whose code was scanned. -/
  scanned : Nat
  /-- The count of methods without CIL code. -/
  withoutBody : Nat
deriving DecidableEq, Repr

namespace ScanReport

/-- The report of nothing. -/
def empty : ScanReport := ⟨[], [], 0, 0⟩

/-- Whether every method with a body was scanned. -/
def isComplete (r : ScanReport) : Bool := r.failures.isEmpty

/-- The loaded strings, one load of each, in the order of the heap. -/
def unique (r : ScanReport) : List StringLoad := StringLoad.firstPerEntry r.loads

end ScanReport

end ManagedImage
