/-
What redaction does to an image. The ranges that it overwrites are payloads of
entries of the heap of user strings, so they lie in the heap and meet no length
and no flag (`payload_of_load`). Redaction always succeeds, changes the bytes of
the payloads it was asked for and no other, and leaves the heap one that is
walked over the same entries (`redactWhere_overwrites_payloads`).
-/
import ManagedImage.Proofs.MethodScan
import ManagedImage.Redaction.Patch

namespace ManagedImage

/-! ## Overwriting several ranges -/

namespace Bytes

/-- The bytes with several ranges overwritten, one after the other. -/
def overwriteAll (filler : UInt8) (data : Bytes) (spans : List Span) : Bytes :=
  spans.foldl (fun data span => data.overwrite filler span.start span.length) data

@[simp] theorem size_overwriteAll (filler : UInt8) (data : Bytes) (spans : List Span) :
    (overwriteAll filler data spans).size = data.size := by
  induction spans generalizing data with
  | nil => rfl
  | cons span spans ih => exact (ih _).trans (size_overwrite ..)

/-- Overwriting changes the bytes of its ranges and no other. -/
theorem getElem?_overwriteAll_of_notMem {filler : UInt8} {data : Bytes} {spans : List Span} {pos : Nat}
    (free : ∀ span ∈ spans, pos ∉ span) : (overwriteAll filler data spans)[pos]? = data[pos]? := by
  induction spans generalizing data with
  | nil => rfl
  | cons span spans ih =>
    have apart : ¬ (span.start ≤ pos ∧ pos < span.start + span.length ∧ pos < data.size) := by
      have out := free span List.mem_cons_self
      simp only [Span.mem_def, Span.length] at out ⊢
      omega
    show (overwriteAll filler (data.overwrite filler span.start span.length) spans)[pos]? = _
    rw [ih fun other mem => free other (List.mem_cons_of_mem _ mem), getElem?_overwrite, if_neg apart]

theorem getElem?_overwriteAll_of_mem {filler : UInt8} {data : Bytes} {spans : List Span} {pos : Nat}
    (inside : pos < data.size) (mem : ∃ span ∈ spans, pos ∈ span) :
    (overwriteAll filler data spans)[pos]? = some filler := by
  induction spans generalizing data with
  | nil => obtain ⟨span, ⟨⟩, -⟩ := mem
  | cons first spans ih =>
    show (overwriteAll filler (data.overwrite filler first.start first.length) spans)[pos]? = _
    by_cases later : ∃ span ∈ spans, pos ∈ span
    · exact ih (by rwa [size_overwrite]) later
    · obtain ⟨span, there, within⟩ := mem
      rcases List.mem_cons.1 there with rfl | there
      · rw [getElem?_overwriteAll_of_notMem fun other mem h => later ⟨other, mem, h⟩,
          getElem?_overwrite]
        refine if_pos ⟨within.1, ?_, inside⟩
        simp only [Span.mem_def, Span.length] at within ⊢
        omega
      · exact absurd ⟨span, there, within⟩ later

end Bytes

namespace RedactedImage

/-- The ranges with another one, which is kept once. -/
def addOnce (patched : List Span) (span : Span) : List Span :=
  if span ∈ patched then patched else patched ++ [span]

theorem mem_foldl_addOnce {spans patched : List Span} {span : Span} :
    span ∈ spans.foldl addOnce patched ↔ span ∈ patched ∨ span ∈ spans := by
  induction spans generalizing patched with
  | nil => simp
  | cons first spans ih =>
    have one : span ∈ addOnce patched first ↔ span ∈ patched ∨ span = first := by
      unfold addOnce
      split
      case isTrue there => exact ⟨.inl, fun h => h.elim id fun same => same ▸ there⟩
      case isFalse => rw [List.mem_append, List.mem_singleton]
    rw [List.foldl_cons, ih, one, List.mem_cons, or_assoc]

/-- What is kept of ranges stands in their order. -/
theorem sublist_foldl_addOnce (spans patched : List Span) :
    (spans.foldl addOnce patched).Sublist (patched ++ spans) := by
  induction spans generalizing patched with
  | nil => rw [List.append_nil]; exact .refl _
  | cons first spans ih =>
    refine (ih _).trans ?_
    unfold addOnce
    split
    · exact (List.sublist_cons_self _ _).append_left _
    · rw [List.append_assoc, List.singleton_append]

theorem foldlM_fill {spans : List Span} {r : RedactedImage} {filler : UInt8}
    (inside : ∀ span ∈ spans, span.start ≤ span.stop ∧ span.stop ≤ r.data.size) :
    spans.foldlM (fun copy span => copy.fill span filler) r =
      .ok ⟨r.data.overwriteAll filler spans, spans.foldl addOnce r.patched⟩ := by
  induction spans generalizing r with
  | nil => rfl
  | cons span spans ih =>
    have first : r.fill span filler =
        .ok ⟨r.data.overwrite filler span.start span.length, addOnce r.patched span⟩ := by
      rw [fill, if_pos (inside span List.mem_cons_self)]
      rfl
    rw [List.foldlM_cons, first]
    refine ih fun other mem => ?_
    rw [Bytes.size_overwrite]
    exact inside other (List.mem_cons_of_mem _ mem)

end RedactedImage

namespace StringLoad

/-! ## One load of each entry -/

theorem mem_after_or {entry : Nat} {loads : List StringLoad} {load : StringLoad} (mem : load ∈ loads) :
    load.entry = entry ∨ ∃ kept ∈ dropRepeats.after entry loads, kept.entry = load.entry := by
  induction loads generalizing entry with
  | nil => cases mem
  | cons first later ih =>
    rw [dropRepeats.after]
    split
    case isTrue same =>
      rcases List.mem_cons.1 mem with rfl | mem
      · exact .inl same
      · exact ih mem
    case isFalse =>
      rcases List.mem_cons.1 mem with rfl | mem
      · exact .inr ⟨_, List.mem_cons_self, rfl⟩
      · rcases @ih first.entry mem with same | ⟨kept, there, same⟩
        · exact .inr ⟨first, List.mem_cons_self, same.symm⟩
        · exact .inr ⟨kept, List.mem_cons_of_mem _ there, same⟩

theorem exists_mem_firstPerEntry {loads : List StringLoad} {load : StringLoad} (mem : load ∈ loads) :
    ∃ kept ∈ firstPerEntry loads, kept.entry = load.entry := by
  have sorted : load ∈ loads.mergeSort fun a b => a.entry ≤ b.entry := List.mem_mergeSort.2 mem
  unfold firstPerEntry
  cases order : loads.mergeSort (fun a b => a.entry ≤ b.entry) with
  | nil => rw [order] at sorted; cases sorted
  | cons first later =>
    rw [order] at sorted
    rcases List.mem_cons.1 sorted with rfl | mem
    · exact ⟨_, List.mem_cons_self, rfl⟩
    · rcases @mem_after_or first.entry later load mem with same | ⟨kept, there, same⟩
      · exact ⟨first, List.mem_cons_self, same.symm⟩
      · exact ⟨kept, List.mem_cons_of_mem _ there, same⟩

/-- Behind a load of `entry`, what is kept of sorted loads is of later entries, each of them once. -/
theorem ordered_after {entry : Nat} {loads : List StringLoad}
    (sorted : loads.Pairwise fun a b => a.entry ≤ b.entry) (least : ∀ load ∈ loads, entry ≤ load.entry) :
    (dropRepeats.after entry loads).Pairwise (fun a b => a.entry < b.entry) ∧
      ∀ load ∈ dropRepeats.after entry loads, entry < load.entry := by
  induction loads generalizing entry with
  | nil => exact ⟨.nil, nofun⟩
  | cons first later ih =>
    obtain ⟨low, sorted⟩ := List.pairwise_cons.1 sorted
    have bound := least first List.mem_cons_self
    rw [dropRepeats.after]
    split
    case isTrue => exact ih sorted fun load mem => least load (List.mem_cons_of_mem _ mem)
    case isFalse other =>
      obtain ⟨order, above⟩ := @ih first.entry sorted low
      refine ⟨List.pairwise_cons.2 ⟨above, order⟩, fun load mem => ?_⟩
      have bound : entry < first.entry := Nat.lt_of_le_of_ne bound (Ne.symm other)
      rcases List.mem_cons.1 mem with rfl | mem
      · exact bound
      · exact Nat.lt_trans bound (above load mem)

theorem ordered_firstPerEntry (loads : List StringLoad) :
    (firstPerEntry loads).Pairwise fun a b => a.entry < b.entry := by
  have sorted : (loads.mergeSort fun a b => a.entry ≤ b.entry).Pairwise
      fun a b => decide (a.entry ≤ b.entry) = true :=
    List.pairwise_mergeSort (fun a b c => by simpa using Nat.le_trans)
      (fun a b => by simpa using Nat.le_total a.entry b.entry) _
  rw [firstPerEntry]
  generalize loads.mergeSort (fun a b => a.entry ≤ b.entry) = loads at sorted ⊢
  simp only [decide_eq_true_eq] at sorted
  cases loads with
  | nil => exact .nil
  | cons first later =>
    obtain ⟨low, sorted⟩ := List.pairwise_cons.1 sorted
    obtain ⟨order, above⟩ := ordered_after sorted low
    exact .cons above order

end StringLoad

/-! ## The ranges of an image -/

/-- The payloads that a redaction overwrites, in order. -/
def ScanReport.targets (r : ScanReport) (accept : StringLoad → Bool) : List Span :=
  (StringLoad.firstPerEntry (r.loads.filter accept)).map StringLoad.payload

namespace Image

variable {data : Bytes} {i : Image} {config : ScanConfig} {us : Span} {s : UserString}

/-- An entry of the heap with a load that is accepted. -/
def Selected (i : Image) (config : ScanConfig) (accept : StringLoad → Bool) (us : Span)
    (s : UserString) : Prop :=
  i.Reaches us s ∧ ∃ load ∈ (i.scan config).loads, accept load = true ∧ load.entry = s.offset

theorem Reaches.unique {us' : Span} {s' : UserString} (h : i.Reaches us s) (h' : i.Reaches us' s')
    (same : s.offset = s'.offset) : us = us' ∧ s = s' := by
  obtain rfl := h.span_eq h'.span
  have found := UserStringHeap.get_of_mem_walk h.walked
  rw [same, UserStringHeap.get_of_mem_walk h'.walked] at found
  exact ⟨rfl, (Except.ok.inj found).symm⟩

theorem Reaches.payload_fits (h : i.Reaches us s) (loaded : Loaded data i) :
    us.start ≤ (s.payloadSpan.shift us.start).start ∧
      (s.payloadSpan.shift us.start).start ≤ (s.payloadSpan.shift us.start).stop ∧
      (s.payloadSpan.shift us.start).stop ≤ us.stop ∧ us.stop ≤ i.data.size := by
  obtain ⟨-, order, fits⟩ := userStrings?_of_span loaded h.span
  have stands := UserStringHeap.standsIn_of_mem_walk h.walked
  have inside := stands.stop_le_size
  have payload := stands.payload_le_stop
  have size : (userStringsIn i.data us).data.size = us.stop - us.start := by
    rw [userStringsIn, Array.size_extract, Nat.min_eq_left fits]
  simp only [Span.shift]
  have ends := s.payload_stop
  omega

/-- A load is of an entry that the walk reaches, and has its payload. -/
theorem entry_of_load (loaded : Loaded data i) {load : StringLoad}
    (mem : load ∈ (i.scan config).loads) :
    ∃ us s, i.Reaches us s ∧ s.offset = load.entry ∧
      load.payload = s.payloadSpan.shift us.start := by
  obtain ⟨code, -, loads, scanned, mem⟩ := mem_scan_loads.1 mem
  obtain ⟨site, resolved⟩ := LoadScope.mem_scanMethod scanned mem
  obtain ⟨-, us, s, reached, offset, rfl⟩ := (LoadScope.resolve_eq_some loaded).1 resolved
  refine ⟨us, s, reached, offset, ?_⟩
  show s.payloadSpan.shift (LoadScope.ofImage i config).heapStart = _
  rw [LoadScope.heapStart_of_span reached.span]

/-- What a redaction overwrites are the payloads of the entries that were selected. -/
theorem mem_targets (loaded : Loaded data i) {accept : StringLoad → Bool} {span : Span} :
    span ∈ (i.scan config).targets accept ↔
      ∃ us s, i.Selected config accept us s ∧ span = s.payloadSpan.shift us.start := by
  unfold ScanReport.targets
  rw [List.mem_map]
  constructor
  · rintro ⟨load, kept, rfl⟩
    obtain ⟨mem, accepted⟩ := List.mem_filter.1 (StringLoad.mem_of_mem_firstPerEntry kept)
    obtain ⟨us, s, reached, offset, payload⟩ := entry_of_load loaded mem
    exact ⟨us, s, ⟨reached, load, mem, accepted, offset.symm⟩, payload⟩
  · rintro ⟨us, s, ⟨reached, load, mem, accepted, offset⟩, rfl⟩
    obtain ⟨kept, there, same⟩ :=
      StringLoad.exists_mem_firstPerEntry (List.mem_filter.2 ⟨mem, accepted⟩)
    obtain ⟨mem', -⟩ := List.mem_filter.1 (StringLoad.mem_of_mem_firstPerEntry there)
    obtain ⟨us', s', reached', offset', payload⟩ := entry_of_load loaded mem'
    obtain ⟨rfl, rfl⟩ := reached.unique reached' (by rw [offset', same, offset])
    exact ⟨kept, there, payload⟩

theorem targets_fit (loaded : Loaded data i) {accept : StringLoad → Bool} {span : Span}
    (mem : span ∈ (i.scan config).targets accept) :
    span.start ≤ span.stop ∧ span.stop ≤ i.data.size := by
  obtain ⟨us, s, ⟨reached, -⟩, rfl⟩ := (mem_targets loaded).1 mem
  obtain ⟨-, order, inside, fits⟩ := reached.payload_fits loaded
  exact ⟨order, Nat.le_trans inside fits⟩

/-- The ranges that a redaction overwrites stand apart: a length is between any two. -/
theorem targets_apart (loaded : Loaded data i) (accept : StringLoad → Bool) :
    ((i.scan config).targets accept).Pairwise fun a b => a.stop < b.start := by
  refine List.pairwise_map.2 ((StringLoad.ordered_firstPerEntry _).imp_of_mem fun mem mem' before => ?_)
  have mem := (List.mem_filter.1 (StringLoad.mem_of_mem_firstPerEntry mem)).1
  have mem' := (List.mem_filter.1 (StringLoad.mem_of_mem_firstPerEntry mem')).1
  obtain ⟨us, s, reached, offset, payload⟩ := entry_of_load loaded mem
  obtain ⟨us', s', reached', offset', payload'⟩ := entry_of_load loaded mem'
  obtain rfl := reached.span_eq reached'.span
  rw [payload, payload']
  rw [← offset, ← offset'] at before
  have ends := (UserStringHeap.standsIn_of_mem_walk reached.walked).payload_le_stop
  have starts := (UserStringHeap.standsIn_of_mem_walk reached'.walked).offset_lt_payload
  have forward := s'.offset_le_stop
  rcases UserStringHeap.walk_apart reached.walked reached'.walked with rfl | apart | apart
  · exact absurd before (Nat.lt_irrefl _)
  all_goals
    simp only [Span.shift]
    omega

/-- The ranges that a redaction overwrites stand one behind the other. -/
theorem ordered_targets (loaded : Loaded data i) (accept : StringLoad → Bool) :
    ((i.scan config).targets accept).Pairwise fun a b => a.stop ≤ b.start :=
  (targets_apart loaded accept).imp Nat.le_of_lt

theorem redactWhere_of_fits {report : ScanReport} {accept : StringLoad → Bool}
    (inside : ∀ span ∈ report.targets accept, span.start ≤ span.stop ∧ span.stop ≤ i.data.size) :
    i.redactWhere report config accept =
      .ok ⟨i.data.overwriteAll config.filler (report.targets accept),
        (report.targets accept).foldl RedactedImage.addOnce []⟩ := by
  have all := @RedactedImage.foldlM_fill _ (.ofBytes i.data) config.filler inside
  unfold ScanReport.targets at all
  rw [List.foldlM_map] at all
  exact all

/-- Redaction with the report of the image succeeds. -/
theorem redactWhere_eq (loaded : Loaded data i) (accept : StringLoad → Bool) :
    i.redactWhere (i.scan config) config accept =
      .ok ⟨i.data.overwriteAll config.filler ((i.scan config).targets accept),
        ((i.scan config).targets accept).foldl RedactedImage.addOnce []⟩ :=
  redactWhere_of_fits fun _ mem => targets_fit loaded mem

/-- The walk of the heap does not notice changes of payloads. -/
theorem walk_of_changed_payloads (loaded : Loaded data i) (span : i.streamSpan? "#US" = some us)
    {changed : Bytes} (size : changed.size = i.data.size)
    (agree : ∀ pos, (∀ s, i.Reaches us s → pos ∉ s.payloadSpan.shift us.start) →
      changed[pos]? = i.data[pos]?) :
    (userStringsIn changed us).walk.done.map UserString.shape =
        (userStringsIn i.data us).walk.done.map UserString.shape ∧
      (userStringsIn changed us).walk.fault = (userStringsIn i.data us).walk.fault := by
  obtain ⟨-, order, fits⟩ := userStrings?_of_span loaded span
  have sizes : (userStringsIn i.data us).data.size = (userStringsIn changed us).data.size := by
    simp only [userStringsIn, Array.size_extract, size]
  have same : ∀ pos, 0 ≤ pos →
      (∀ s ∈ (userStringsIn i.data us).walk.done, pos ∉ s.payloadSpan) →
      (userStringsIn i.data us).data[pos]? = (userStringsIn changed us).data[pos]? := by
    intro pos _ free
    simp only [userStringsIn, Array.getElem?_extract, size]
    split
    · refine (agree (us.start + pos) fun s reached there => free s reached.walked ?_).symm
      simp only [Span.mem_def, Span.shift] at there ⊢
      omega
    · rfl
  obtain ⟨done, walked, shapes⟩ := (userStringsIn i.data us).walk_walks.transfer sizes same
  obtain ⟨rfl, fault⟩ := (userStringsIn changed us).walk_walks.det walked
  exact ⟨shapes, fault⟩

/--
**A redaction overwrites the payloads it was asked for, and nothing else.** It
succeeds on every image that loads, and keeps the length. A byte of the payload
of an entry with an accepted load is the filler, any other byte is as before.
What was overwritten lies in the heap of user strings and has no byte of the
length or the flag of an entry, so the heap of the copy is walked over the same
entries, up to the payloads, and to the same fault.
-/
theorem redactWhere_overwrites_payloads (loads : Image.ofBytes data = .ok i) (config : ScanConfig)
    (accept : StringLoad → Bool) :
    ∃ copy, i.redactWhere (i.scan config) config accept = .ok copy ∧
      copy.data.size = data.size ∧
      (∀ us s pos, i.Selected config accept us s → pos ∈ s.payloadSpan.shift us.start →
        copy.data[pos]? = some config.filler) ∧
      (∀ pos, (∀ us s, i.Selected config accept us s → pos ∉ s.payloadSpan.shift us.start) →
        copy.data[pos]? = data[pos]?) ∧
      (∀ range ∈ copy.patched, ∃ us, i.streamSpan? "#US" = some us ∧
        us.start ≤ range.start ∧ range.start ≤ range.stop ∧ range.stop ≤ us.stop ∧
        ∀ s ∈ (userStringsIn data us).walk.done, ∀ pos ∈ range,
          pos ∉ s.prefixSpan.shift us.start ∧ pos ∉ s.flagSpan.shift us.start) ∧
      ∀ us, i.streamSpan? "#US" = some us →
        (userStringsIn copy.data us).walk.done.map UserString.shape =
            (userStringsIn data us).walk.done.map UserString.shape ∧
          (userStringsIn copy.data us).walk.fault = (userStringsIn data us).walk.fault := by
  have loaded := ofBytes_eq_ok.1 loads
  rw [← data_of_loaded loaded]
  have kept : ∀ pos, (∀ us s, i.Selected config accept us s → pos ∉ s.payloadSpan.shift us.start) →
      (i.data.overwriteAll config.filler ((i.scan config).targets accept))[pos]? = i.data[pos]? := by
    intro pos free
    refine Bytes.getElem?_overwriteAll_of_notMem fun range mem => ?_
    obtain ⟨us, s, selected, rfl⟩ := (mem_targets loaded).1 mem
    exact free us s selected
  refine ⟨_, redactWhere_eq loaded accept, Bytes.size_overwriteAll .., ?_, kept, ?_, ?_⟩
  · intro us s pos selected there
    have target := (mem_targets loaded).2 ⟨us, s, selected, rfl⟩
    have inside := (targets_fit loaded target).2
    exact Bytes.getElem?_overwriteAll_of_mem (Nat.lt_of_lt_of_le there.2 inside) ⟨_, target, there⟩
  · intro range patched
    have target : range ∈ (i.scan config).targets accept :=
      (RedactedImage.mem_foldl_addOnce.1 patched).resolve_left List.not_mem_nil
    obtain ⟨us, s, ⟨reached, -⟩, rfl⟩ := (mem_targets loaded).1 target
    obtain ⟨low, order, high, -⟩ := reached.payload_fits loaded
    refine ⟨us, reached.span, low, order, high, fun s' walked pos there => ?_⟩
    have inside : pos - us.start ∈ s.payloadSpan := by
      simp only [Span.mem_def, Span.shift] at there ⊢
      omega
    have apart := UserStringHeap.payload_apart reached.walked walked inside
    simp only [Span.mem_def, Span.shift] at there apart ⊢
    omega
  · intro us span
    refine walk_of_changed_payloads loaded span (Bytes.size_overwriteAll ..) fun pos free => ?_
    refine kept pos fun us' s selected => ?_
    obtain rfl := selected.1.span_eq span
    exact free s selected.1

theorem redactWhere_overwrites_payloads_small :
    ∃ i copy, Image.ofBytes smallImage = .ok i ∧ (i.scan .standard).loads.length = 1 ∧
      i.redactWhere (i.scan .standard) .standard (fun _ => true) = .ok copy ∧
      copy.data.size = smallImage.size := by
  obtain ⟨i, loads, count, -⟩ := smallImage_scan
  obtain ⟨copy, redacted, size, -⟩ := redactWhere_overwrites_payloads loads .standard fun _ => true
  exact ⟨i, copy, loads, count, redacted, size⟩

end Image

end ManagedImage
