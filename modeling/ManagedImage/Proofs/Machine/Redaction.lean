/-
Scanning and redacting an image on the machine, and what loading, scanning and
redaction come to: on a file of fewer than `2 ^ 63` bytes none of them is broken
off (`pipeline_never_aborts`).

What bounds the sums of a scan is where things lie. The code of a method and the
heap of user strings lie in the file, a site in its code and an entry in the
heap; no number is counted higher than there are methods. The payloads that a
redaction overwrites stand one behind the other in the file, so there are no
more bytes in all of them than in the file.
-/
import ManagedImage.Proofs.Machine.Code
import ManagedImage.Proofs.Machine.Loading
import ManagedImage.Proofs.Machine.UserStrings
import ManagedImage.Proofs.PayloadRedaction

namespace ManagedImage

/-! ## Bounds -/

theorem Tables.methodDefs_lt {stream : Bytes} {t : Tables} (h : Tables.read stream = .ok t) :
    t.methodDefs.rows.size < 2 ^ 32 := by
  have stages := read_eq_ok.1 h
  have read := stages.methodDefs
  rw [readTable, stages.placements] at read
  split at read
  · next p found =>
    obtain ⟨-, count, -⟩ := TablesHeader.mem_places (List.mem_of_find?_eq_some found)
    rw [(Table.read_eq_ok read).1, count]
    exact UInt32.toNat_lt _
  · rw [← Except.ok.inj read]
    exact Nat.two_pow_pos 32

theorem StringSite.lt_of_findAll {code : Bytes} {sites : List StringSite}
    (found : findAll code = .ok sites) {site : StringSite} (mem : site ∈ sites) :
    site.offset < code.size := by
  obtain ⟨list, read, rfl⟩ := findAll_eq_ok.1 found
  obtain ⟨ins, mem, isSite⟩ := List.mem_filterMap.1 mem
  rw [Instruction.offset_of_stringSite? isSite]
  have isLoad : ins.loadsString = true := by
    rw [Instruction.stringSite?] at isSite
    split at isSite
    · assumption
    · cases isSite
  have fits := (Instruction.readAll_loadsString read mem isLoad).1
  omega

/-- The heap that loads are checked against lies in a file of `size` bytes. -/
def LoadScope.LiesIn (s : LoadScope) (size : Nat) : Prop :=
  ∀ heap, s.heap = some heap → s.heapStart + heap.data.size ≤ size

theorem LoadScope.ofImage_liesIn {data : Bytes} {i : Image} (loaded : Image.Loaded data i)
    (config : ScanConfig) : (ofImage i config).LiesIn i.data.size := by
  intro heap there
  cases span : i.streamSpan? "#US" with
  | none =>
    have missing := (Image.userStrings?_of_no_span span).symm.trans there
    cases missing
  | some us =>
    obtain ⟨opened, order, inside⟩ := Image.userStrings?_of_span loaded span
    obtain rfl := Option.some.inj (opened.symm.trans there)
    rw [heapStart_of_span span, Image.userStringsIn, Array.size_extract]
    omega

namespace Machine

/-! ## The scan of a method -/

/-- A range of the heap as one of the file. -/
def shift (range : Span) (start : Nat) : Run Span := do
  return ⟨← add 64 start range.start, ← add 64 start range.stop⟩

/-- The load of a site in a method, none for a foreign token that may be passed over. -/
def resolve (s : LoadScope) (code : MethodCode) (site : StringSite) : Run (Option StringLoad) := do
  let instructionOffset ← add 64 (codeSpan code.body).start site.offset
  if site.token.isUserString then
    match s.heap with
    | none => refuse (.malformed (.noUserStrings instructionOffset))
    | some heap =>
      let entry ← entryAt heap site.token.index.toNat
      if s.entries.contains entry.offset then
        let payload ← payloadSpan entry
        return some {
          rid := code.rid
          method := code.token
          instructionOffset
          token := site.token
          entry := site.token.index.toNat
          payload := ← shift payload s.heapStart
          flag := entry.flag
          value := ← text entry }
      else refuse (.malformed (.insideEntry instructionOffset site.token))
  else if s.skipForeign then return none
  else refuse (.malformed (.foreignToken instructionOffset site.token))

/-- The string loads in the code of a method. -/
def sites (data : Bytes) (code : MethodCode) : Run (List StringSite) := do
  let range := codeSpan code.body
  findSites (← slice data range.start range.length)

/-- The loads of a method. -/
def scanMethod (s : LoadScope) (data : Bytes) (code : MethodCode) : Run (List StringLoad) := do
  return (← (← sites data code).mapM (resolve s code)).filterMap id

section Method

variable {s : LoadScope} {data : Bytes} {code : MethodCode}

theorem shift_eq {range : Span} {start : Nat} (order : range.start ≤ range.stop)
    (fits : start + range.stop < 2 ^ 64) : shift range start = .ok (range.shift start) := by
  rw [shift, add_eq (by omega), ok_bind, add_eq fits]
  rfl

theorem resolve_eq (short : data.size < 2 ^ 63) (held : s.LiesIn data.size)
    (fits : code.body.codeSpan.stop ≤ data.size) {site : StringSite}
    (inside : code.body.codeSpan.start + site.offset < data.size) :
    resolve s code site = Run.of (s.resolve code site) := by
  rw [resolve, codeSpan_eq (by omega), add_eq (by omega), ok_bind, LoadScope.resolve]
  by_cases known : site.token.isUserString = true
  · rw [if_pos known, if_pos known]
    cases there : s.heap with
    | none => rfl
    | some heap =>
      have room := held heap there
      dsimp only
      refine Run.bind_of (entryAt_eq (by omega) _) fun entry found => ?_
      obtain ⟨-, stands⟩ := UserStringHeap.get_eq_ok found
      have stop := Nat.le_trans stands.payload_le_stop stands.stop_le_size
      by_cases reached : s.entries.contains entry.offset = true
      · rw [if_pos reached, if_pos reached, payloadSpan_eq (by omega) stands, ok_bind,
          shift_eq (Nat.le_add_right ..) (by omega), ok_bind, text_eq]
        rfl
      · rw [if_neg reached, if_neg reached]
        rfl
  · rw [if_neg known, if_neg known]
    split <;> rfl

theorem sites_eq (short : data.size < 2 ^ 63) (fits : code.body.codeSpan.stop ≤ data.size) :
    sites data code = Run.of (LoadScope.sites data code) := by
  rw [sites, codeSpan_eq (by omega)]
  refine Run.bind_of (slice_eq short _ _) fun bytes cut => ?_
  exact findSites_eq (addressable_of_slice short cut)

theorem scanMethod_eq (short : data.size < 2 ^ 63) (held : s.LiesIn data.size)
    (fits : code.body.codeSpan.stop ≤ data.size) :
    scanMethod s data code = Run.of (s.scanMethod data code) := by
  refine Run.bind_of (sites_eq short fits) fun found listed => ?_
  obtain ⟨bytes, cut, listed⟩ := Except.bind_eq_ok.1 listed
  obtain ⟨whole, rfl⟩ := Bytes.slice_eq_ok.1 cut
  refine Run.bind_of (Run.mapM_of fun site mem => ?_) fun _ _ => rfl
  have inside := StringSite.lt_of_findAll listed mem
  rw [Array.size_extract] at inside
  exact resolve_eq short held fits (by omega)

end Method

/-! ## The scan of an image -/

/-- The heap of user strings, if its stream is there and sound. -/
def userStrings (i : Image) : Run (Option UserStringHeap) := do
  match ← attempt (openHeap i.data i.streams "#US" fun bytes => Run.of (UserStringHeap.ofBytes bytes)) with
  | .ok heap => return heap
  | .error _ => return none

/-- The range of the file that the first stream of a name takes. -/
def streamSpan (i : Image) (name : String) : Run (Option Span) :=
  match i.stream? name with
  | some s => do return some ⟨s.fileOffset, ← add 64 s.fileOffset s.size.toNat⟩
  | none => return none

/-- The positions of the entries of a heap. -/
def entries (heap : Option UserStringHeap) : Run Positions :=
  match heap with
  | some heap => do return .ofList heap.data.size ((← walk heap).done.map (·.offset))
  | none => return .empty 0

/-- What the loads of an image are checked against. -/
def scope (i : Image) (config : ScanConfig) : Run LoadScope := do
  let heap ← userStrings i
  let span ← streamSpan i "#US"
  return { heap, heapStart := span.elim 0 Span.start, entries := ← entries heap,
           skipForeign := config.skipForeign }

/-- Adds the outcomes of methods to what is already reported. -/
def tally : List (MethodCode × Except Error (List StringLoad)) → ScanReport → Run ScanReport
  | [], r => return r
  | (code, outcome) :: later, r =>
    match outcome with
    | .ok loads => do
      let scanned ← add 64 r.scanned 1
      tally later { r with loads := r.loads ++ loads, scanned }
    | .error error => tally later { r with failures := r.failures ++ [⟨code.rid, code.token, error⟩] }

/-- Scans every method with a body. -/
def scan (i : Image) (config : ScanConfig) : Run ScanReport := do
  let bodies ← locateAll i.file i.tables.methodDefs.rows.toList ⟨[], [], 0⟩
  let scope ← scope i config
  let outcomes ← bodies.found.mapM fun code => do
    return (code, ← attempt (scanMethod scope i.data code))
  let report ← tally outcomes ⟨[], bodies.failures, 0, bodies.withoutBody⟩
  return { report with failures := report.failures.mergeSort fun a b => a.rid ≤ b.rid }

theorem tally_eq {scan : MethodCode → Except Error (List StringLoad)} {codes : List MethodCode}
    {r : ScanReport} (few : r.scanned + codes.length < 2 ^ 64) :
    tally (codes.map fun code => (code, scan code)) r =
      let later := ScanReport.ofMethods scan codes
      .ok ⟨r.loads ++ later.loads, r.failures ++ later.failures, r.scanned + later.scanned,
        r.withoutBody⟩ := by
  induction codes generalizing r with
  | nil =>
    show Except.ok r = .ok ⟨r.loads ++ [], r.failures ++ [], r.scanned + 0, r.withoutBody⟩
    rw [List.append_nil, List.append_nil, Nat.add_zero]
  | cons code codes ih =>
    rw [List.length_cons] at few
    rw [List.map_cons, ScanReport.ofMethods_cons]
    cases scan code with
    | ok loads =>
      rw [tally, add_eq (by omega), ok_bind, ih (by simp only; omega), ScanReport.add]
      simp only [List.append_assoc, Nat.add_assoc, Nat.add_comm 1]
    | error e =>
      rw [tally, ih (by simp only; omega), ScanReport.add]
      simp only [List.append_assoc, List.singleton_append]

section Image

variable {data : Bytes} {i : Image}

theorem userStrings_eq (short : i.data.size < 2 ^ 63) : userStrings i = .ok i.userStrings? := by
  rw [userStrings, openHeap_eq short fun _ => rfl, attempt_of, ok_bind, Image.userStrings?, Image.heap?]
  cases Image.openHeap i.data i.streams "#US" UserStringHeap.ofBytes <;> rfl

theorem streamSpan_eq (loaded : Image.Loaded data i) (short : i.data.size < 2 ^ 63) :
    streamSpan i "#US" = .ok (i.streamSpan? "#US") := by
  rw [streamSpan]
  cases there : i.stream? "#US" with
  | none => rw [Image.streamSpan?, there]; rfl
  | some s =>
    have span : i.streamSpan? "#US" = some s.span := by rw [Image.streamSpan?, there]; rfl
    have inside : s.span.stop ≤ i.data.size := (Image.userStrings?_of_span loaded span).2.2
    rw [Stream.span] at inside
    dsimp only at inside ⊢
    rw [add_eq (by omega), span]
    rfl

theorem scope_eq (loaded : Image.Loaded data i) (short : i.data.size < 2 ^ 63) (config : ScanConfig) :
    scope i config = .ok (.ofImage i config) := by
  have held := LoadScope.ofImage_liesIn loaded config
  have all : entries i.userStrings? = .ok (i.userStrings?.elim (.empty 0) LoadScope.entriesOf) := by
    cases there : i.userStrings? with
    | none => rfl
    | some heap =>
      have room := held heap there
      rw [entries, walk_eq (by omega)]
      rfl
  rw [scope, userStrings_eq short, ok_bind, streamSpan_eq loaded short, ok_bind, all]
  rfl

theorem scan_eq (loaded : Image.Loaded data i) (short : i.data.size < 2 ^ 63) (config : ScanConfig) :
    scan i config = .ok (i.scan config) := by
  obtain ⟨stream, -, read⟩ := loaded.tables
  have few := Tables.methodDefs_lt read
  have all := MethodBodies.count_bodies i.file i.tables.methodDefs.rows.toList
  rw [Array.length_toList] at all
  have located : locateAll i.file i.tables.methodDefs.rows.toList ⟨[], [], 0⟩ = .ok i.methodBodies := by
    rw [locateAll_eq short (by simp only [Array.length_toList]; omega)]
    simp only [List.nil_append, Nat.zero_add]
    rfl
  have each : ∀ code ∈ i.methodBodies.found,
      (do return (code, ← attempt (scanMethod (.ofImage i config) i.data code)) : Run _) =
        .ok (code, (LoadScope.ofImage i config).scanMethod i.data code) := by
    intro code mem
    obtain ⟨method, -, found⟩ := MethodBodies.mem_found.1 mem
    have fits := (MethodBodies.codeSpan_fits found).2
    rw [scanMethod_eq short (LoadScope.ofImage_liesIn loaded config) fits, attempt_of]
    rfl
  have found : i.methodBodies.found.length < 2 ^ 32 := by
    rw [Image.methodBodies]
    omega
  rw [scan, located, ok_bind, scope_eq loaded short, ok_bind, mapM_ok each, ok_bind,
    tally_eq (by simp only; omega), ok_bind]
  simp only [List.nil_append, Nat.zero_add]
  rfl

/-! ## Redaction -/

/-- The sum of the lengths of ranges, behind those already summed up. -/
def total : Nat → List Span → Run Nat
  | n, [] => return n
  | n, range :: later => do total (← add 64 n range.length) later

/-- Overwrites every string of a report. A range is tested before it is filled. -/
def redact (i : Image) (report : ScanReport) (config : ScanConfig) : Run RedactedImage := do
  let copy ← (StringLoad.firstPerEntry (report.loads.filter fun _ => true)).foldlM
    (fun copy load => Run.of (copy.fill load.payload config.filler)) (.ofBytes i.data)
  let _bytes ← total 0 copy.patched
  return copy

/-- Ranges one behind the other have no more bytes than there are in front of the last end. -/
theorem total_eq {n size : Nat} {ranges : List Span} (short : size < 2 ^ 63)
    (apart : ranges.Pairwise fun a b => a.stop ≤ b.start)
    (inside : ∀ range ∈ ranges, n ≤ range.start ∧ range.start ≤ range.stop ∧ range.stop ≤ size) :
    total n ranges = .ok (ranges.foldl (fun n range => n + range.length) n) := by
  induction ranges generalizing n with
  | nil => rfl
  | cons first later ih =>
    obtain ⟨behind, apart⟩ := List.pairwise_cons.1 apart
    obtain ⟨here, inside⟩ := List.forall_mem_cons.1 inside
    have within : n + first.length ≤ first.stop := by
      rw [Span.length]
      omega
    rw [total, add_eq (by omega), ok_bind]
    refine ih apart fun range mem => ?_
    exact ⟨Nat.le_trans within (behind range mem), (inside range mem).2⟩

theorem foldlM_of {α β : Type} (f : β → α → Except Error β) (l : List α) (b : β) :
    l.foldlM (fun b a => Run.of (f b a)) b = Run.of (l.foldlM f b) := by
  induction l generalizing b with
  | nil => rfl
  | cons a l ih => exact Run.bind_of rfl fun b _ => ih b

theorem redact_eq (loaded : Image.Loaded data i) (short : i.data.size < 2 ^ 63) (config : ScanConfig) :
    ∃ copy, i.redact (i.scan config) config = .ok copy ∧
      redact i (i.scan config) config = .ok copy := by
  refine ⟨_, Image.redactWhere_eq loaded _, ?_⟩
  have copied := @Image.redactWhere_eq data i config loaded fun _ => true
  rw [Image.redactWhere] at copied
  have kept := RedactedImage.sublist_foldl_addOnce ((i.scan config).targets fun _ => true) []
  have apart := (Image.ordered_targets loaded fun _ => true).sublist kept
  have summed := total_eq short apart fun range mem =>
    ⟨Nat.zero_le _, Image.targets_fit loaded (kept.subset mem)⟩
  rw [redact, foldlM_of, copied, Run.of_ok, ok_bind, summed]
  rfl

/--
**Loading, scanning and redaction are never broken off.** On a file of fewer than
`2 ^ 63` bytes, whatever it holds, no operation of the machine breaks off: what
is cut out and fetched is there, no sum, difference, product or shift leaves its
width, and each row takes the bytes that its table says. The machine loads what
is loaded without widths, and refuses what is refused; it scans an image to the
same report, and makes the same copy from it.
-/
theorem pipeline_never_aborts (short : data.size < 2 ^ 63) (config : ScanConfig) :
    load data ≠ .error .abort ∧ load data = Run.of (Image.ofBytes data) ∧
      ∀ i, load data = .ok i →
        scan i config = .ok (i.scan config) ∧
        ∃ copy, redact i (i.scan config) config = .ok copy ∧
          i.redact (i.scan config) config = .ok copy := by
  rw [load_eq short]
  refine ⟨Run.of_ne_abort _, rfl, fun i loads => ?_⟩
  have loaded : Image.Loaded data i := by
    cases outcome : Image.ofBytes data with
    | error e => rw [outcome] at loads; cases loads
    | ok i' => rw [outcome] at loads; cases loads; exact Image.ofBytes_eq_ok.1 outcome
  rw [← Image.data_of_loaded loaded] at short
  obtain ⟨copy, redacted, same⟩ := redact_eq loaded short config
  exact ⟨scan_eq loaded short config, copy, same, redacted⟩

theorem pipeline_never_aborts_small :
    smallImage.size < 2 ^ 63 ∧ ∃ i copy, load smallImage = .ok i ∧
      scan i .standard = .ok (i.scan .standard) ∧ (i.scan .standard).loads.length = 1 ∧
      redact i (i.scan .standard) .standard = .ok copy := by
  have short : smallImage.size < 2 ^ 63 := by decide +kernel
  obtain ⟨-, same, runs⟩ := pipeline_never_aborts short .standard
  obtain ⟨i, loads, count, -⟩ := Image.smallImage_scan
  have loads : load smallImage = .ok i := by rw [same, loads]; rfl
  obtain ⟨scanned, copy, redacted, -⟩ := runs i loads
  exact ⟨short, i, copy, loads, scanned, count, redacted⟩

end Image

end Machine

end ManagedImage
