/-
Which ranges a redaction overwrites. They are selected by the loads of a report: an entry
of the heap is overwritten if one of its loads is accepted, and it is overwritten once.

Three things decide what is listed: which load of an entry is kept, in which order the
entries are taken, and whether a range is listed already. None of them shows in the
outcome. All loads of an entry have its payload, so it does not matter which one is kept
(`Image.payload_of_load_eq`); the entries that are kept are ascending whatever the order of
the loads (`ScanReport.entries_congr`); and two payloads are never one range, not even
those of empty entries, since each stands behind a length of its own
(`Image.targets_apart`).

Main statement: `Image.redactWhere_selects`.
-/
import Mathlib.Data.List.Sort
import Mathlib.Order.Interval.Finset.Nat
import ManagedImage.Proofs.PayloadRedaction

namespace ManagedImage

/-! ## Ranges -/

/-- The same positions are overwritten in whichever order, and however often. -/
theorem Bytes.overwriteAll_congr {filler : UInt8} {data : Bytes} {spans spans' : List Span}
    (same : ∀ pos, (∃ span ∈ spans, pos ∈ span) ↔ ∃ span ∈ spans', pos ∈ span) :
    overwriteAll filler data spans = overwriteAll filler data spans' := by
  have free {spans : List Span} {pos : Nat} (none : ¬ ∃ span ∈ spans, pos ∈ span) :
      (overwriteAll filler data spans)[pos]? = data[pos]? :=
    getElem?_overwriteAll_of_notMem fun span mem there => none ⟨span, mem, there⟩
  apply Array.ext_getElem?
  intro pos
  by_cases inside : pos < data.size
  · by_cases covered : ∃ span ∈ spans, pos ∈ span
    · rw [getElem?_overwriteAll_of_mem inside covered,
        getElem?_overwriteAll_of_mem inside ((same pos).1 covered)]
    · rw [free covered, free fun there => covered ((same pos).2 there)]
  · rw [Array.getElem?_eq_none (by rw [size_overwriteAll]; omega),
      Array.getElem?_eq_none (by rw [size_overwriteAll]; omega)]

/-- The positions of a vector of a size that are in one of several ranges. -/
def Span.covered (size : Nat) (spans : List Span) : Finset Nat :=
  (Finset.range size).filter fun pos => ∃ span ∈ spans, pos ∈ span

/-- Ranges that stand apart have as many bytes as there are positions in them. -/
theorem Span.foldl_length_eq_card {spans : List Span} {size : Nat} (n : Nat)
    (apart : spans.Pairwise fun a b => a.stop ≤ b.start)
    (inside : ∀ span ∈ spans, span.start ≤ span.stop ∧ span.stop ≤ size) :
    spans.foldl (fun n span => n + span.length) n = n + (covered size spans).card := by
  induction spans generalizing n with
  | nil => simp [covered]
  | cons first spans ih =>
    obtain ⟨behind, apart⟩ := List.pairwise_cons.1 apart
    obtain ⟨here, inside⟩ := List.forall_mem_cons.1 inside
    have split : covered size (first :: spans) =
        Finset.Ico first.start first.stop ∪ covered size spans := by
      ext pos
      simp only [covered, Finset.mem_filter, Finset.mem_range, Finset.mem_union, Finset.mem_Ico,
        List.exists_mem_cons_iff, Span.mem_def]
      constructor
      · rintro ⟨less, own | later⟩
        · exact .inl own
        · exact .inr ⟨less, later⟩
      · rintro (own | ⟨less, later⟩)
        · exact ⟨by omega, .inl own⟩
        · exact ⟨less, .inr later⟩
    have disjoint : Disjoint (Finset.Ico first.start first.stop) (covered size spans) := by
      refine Finset.disjoint_left.2 fun pos own later => ?_
      obtain ⟨-, span, mem, there⟩ := Finset.mem_filter.1 later
      have order := behind span mem
      rw [Finset.mem_Ico] at own
      rw [Span.mem_def] at there
      omega
    rw [List.foldl_cons, ih _ apart inside, split, Finset.card_union_of_disjoint disjoint,
      Nat.card_Ico, Span.length, Nat.add_assoc]

namespace RedactedImage

/-- Overwrites several ranges, one after the other. -/
def fillAll (r : RedactedImage) (spans : List Span) (filler : UInt8) : Except Error RedactedImage :=
  spans.foldlM (fun copy span => copy.fill span filler) r

theorem foldl_addOnce_of_nodup {spans patched : List Span} (distinct : (patched ++ spans).Nodup) :
    spans.foldl addOnce patched = patched ++ spans := by
  induction spans generalizing patched with
  | nil => exact (List.append_nil _).symm
  | cons first spans ih =>
    have new : first ∉ patched := fun there =>
      (List.disjoint_of_nodup_append distinct) there List.mem_cons_self
    rw [List.append_cons] at distinct ⊢
    rw [List.foldl_cons, addOnce, if_neg new, ih distinct]

end RedactedImage

/-! ## Entries -/

/-- The positions of the entries that a redaction selects, in order. -/
def ScanReport.entries (r : ScanReport) (accept : StringLoad → Bool) : List Nat :=
  (StringLoad.firstPerEntry (r.loads.filter accept)).map StringLoad.entry

namespace ScanReport

variable {r r' : ScanReport} {accept : StringLoad → Bool}

theorem mem_entries {entry : Nat} :
    entry ∈ r.entries accept ↔ ∃ load ∈ r.loads, accept load = true ∧ load.entry = entry := by
  unfold entries
  rw [List.mem_map]
  constructor
  · rintro ⟨load, kept, rfl⟩
    obtain ⟨mem, accepted⟩ := List.mem_filter.1 (StringLoad.mem_of_mem_firstPerEntry kept)
    exact ⟨load, mem, accepted, rfl⟩
  · rintro ⟨load, mem, accepted, rfl⟩
    exact StringLoad.exists_mem_firstPerEntry (List.mem_filter.2 ⟨mem, accepted⟩)

theorem ordered_entries (r : ScanReport) (accept : StringLoad → Bool) :
    (r.entries accept).Pairwise (· < ·) :=
  List.pairwise_map.2 (StringLoad.ordered_firstPerEntry _)

theorem entries_congr (same : ∀ load, load ∈ r.loads ↔ load ∈ r'.loads) :
    r.entries accept = r'.entries accept := by
  refine (ordered_entries r accept).eq_of_mem_iff (ordered_entries r' accept) fun entry => ?_
  simp only [mem_entries, same]

end ScanReport

namespace Image

variable {data : Bytes} {i : Image} {settings config : ScanConfig} {accept : StringLoad → Bool}

theorem payload_of_load_eq (loaded : Loaded data i) {load load' : StringLoad}
    (mem : load ∈ (i.scan settings).loads) (mem' : load' ∈ (i.scan settings).loads)
    (same : load.entry = load'.entry) : load.payload = load'.payload := by
  obtain ⟨us, s, reached, offset, payload⟩ := entry_of_load loaded mem
  obtain ⟨us', s', reached', offset', payload'⟩ := entry_of_load loaded mem'
  obtain ⟨rfl, rfl⟩ := reached.unique reached' (by rw [offset, offset', same])
  rw [payload, payload']

/-- What is overwritten are the payloads of the selected entries, one by one. -/
theorem forall₂_targets (loaded : Loaded data i) (accept : StringLoad → Bool) {report : ScanReport}
    (same : ∀ load, load ∈ report.loads ↔ load ∈ (i.scan settings).loads) :
    List.Forall₂ (fun entry span => ∀ load ∈ (i.scan settings).loads, load.entry = entry →
      load.payload = span) (report.entries accept) (report.targets accept) := by
  unfold ScanReport.entries ScanReport.targets
  rw [List.forall₂_map_left_iff, List.forall₂_map_right_iff, List.forall₂_same]
  intro kept mem load there entry
  have mem := (List.mem_filter.1 (StringLoad.mem_of_mem_firstPerEntry mem)).1
  exact payload_of_load_eq loaded there ((same kept).1 mem) entry

/-- What is overwritten does not depend on the order of the loads. -/
theorem targets_congr (loaded : Loaded data i) {report : ScanReport}
    (same : ∀ load, load ∈ report.loads ↔ load ∈ (i.scan settings).loads) :
    report.targets accept = (i.scan settings).targets accept := by
  -- An entry that has a load has one payload.
  have one : Relator.RightUnique fun (entry : Nat) (span : Span) =>
      (∃ load ∈ (i.scan settings).loads, load.entry = entry) ∧
        ∀ load ∈ (i.scan settings).loads, load.entry = entry → load.payload = span := by
    rintro entry span span' ⟨⟨load, mem, own⟩, all⟩ ⟨-, all'⟩
    exact (all load mem own).symm.trans (all' load mem own)
  have loads : ∀ entry ∈ (i.scan settings).entries accept,
      ∃ load ∈ (i.scan settings).loads, load.entry = entry := by
    intro entry mem
    obtain ⟨load, there, -, own⟩ := ScanReport.mem_entries.1 mem
    exact ⟨load, there, own⟩
  have left := forall₂_targets loaded accept same
  rw [ScanReport.entries_congr same] at left
  have right := forall₂_targets loaded accept fun load => @Iff.rfl (load ∈ (i.scan settings).loads)
  exact one.forall₂ ((List.forall₂_and_left _ _).2 ⟨loads, left⟩)
    ((List.forall₂_and_left _ _).2 ⟨loads, right⟩)

theorem redactWhere_eq_targets (loaded : Loaded data i) {report : ScanReport}
    (same : ∀ load, load ∈ report.loads ↔ load ∈ (i.scan settings).loads)
    (config : ScanConfig) (accept : StringLoad → Bool) :
    i.redactWhere report config accept =
      .ok ⟨i.data.overwriteAll config.filler ((i.scan settings).targets accept),
        (i.scan settings).targets accept⟩ := by
  have distinct : ((i.scan settings).targets accept).Nodup := by
    refine (targets_apart loaded accept).imp_of_mem fun {a b} mem _ before same => ?_
    have order := (targets_fit loaded mem).1
    rw [← same] at before
    exact absurd before (Nat.not_lt.2 order)
  have listed : ((i.scan settings).targets accept).foldl RedactedImage.addOnce [] = [] ++ _ :=
    RedactedImage.foldl_addOnce_of_nodup distinct
  rw [redactWhere_of_fits, targets_congr loaded same, listed, List.nil_append]
  intro span mem
  rw [targets_congr loaded same] at mem
  exact targets_fit loaded mem

theorem mem_targets_or (loaded : Loaded data i) {p q : StringLoad → Bool} {span : Span} :
    span ∈ (i.scan settings).targets (fun load => p load || q load) ↔
      span ∈ (i.scan settings).targets p ∨ span ∈ (i.scan settings).targets q := by
  rw [mem_targets loaded, mem_targets loaded, mem_targets loaded]
  constructor
  · rintro ⟨us, s, ⟨reached, load, mem, accepted, offset⟩, rfl⟩
    rcases Bool.or_eq_true_iff.1 accepted with accepted | accepted
    · exact .inl ⟨us, s, ⟨reached, load, mem, accepted, offset⟩, rfl⟩
    · exact .inr ⟨us, s, ⟨reached, load, mem, accepted, offset⟩, rfl⟩
  · rintro (⟨us, s, ⟨reached, load, mem, accepted, offset⟩, rfl⟩ |
      ⟨us, s, ⟨reached, load, mem, accepted, offset⟩, rfl⟩)
    · exact ⟨us, s, ⟨reached, load, mem, Bool.or_eq_true_iff.2 (.inl accepted), offset⟩, rfl⟩
    · exact ⟨us, s, ⟨reached, load, mem, Bool.or_eq_true_iff.2 (.inr accepted), offset⟩, rfl⟩

/-- Filling what was overwritten under two predicates gives what is overwritten under both. -/
theorem fill_targets_or (loaded : Loaded data i) (filler : UInt8) {p q : StringLoad → Bool}
    {spans : List Span} (both : ∀ span, span ∈ spans ↔
      span ∈ (i.scan settings).targets p ∨ span ∈ (i.scan settings).targets q) :
    ∃ copy, (RedactedImage.ofBytes i.data).fillAll spans filler = .ok copy ∧
      copy.data = i.data.overwriteAll filler
        ((i.scan settings).targets fun load => p load || q load) := by
  have inside : ∀ span ∈ spans, span.start ≤ span.stop ∧ span.stop ≤ i.data.size := by
    intro span mem
    rcases (both span).1 mem with target | target
    · exact targets_fit loaded target
    · exact targets_fit loaded target
  refine ⟨_, RedactedImage.foldlM_fill inside, Bytes.overwriteAll_congr fun pos => ?_⟩
  simp only [both, mem_targets_or loaded]

/--
**A redaction overwrites the payload of each entry that has an accepted load, once.** It
does so whatever the order of the loads in the report. The list of what was overwritten has
the payloads of these entries in the order of the heap, all of them apart, and counts the
positions in them; if every load is accepted they are the payloads of the unique loads.
Accepting what either of two predicates accepts overwrites what the one and then the other
overwrite, in whichever order.
-/
theorem redactWhere_selects (loads : Image.ofBytes data = .ok i) (settings config : ScanConfig) :
    (∀ accept : StringLoad → Bool, ∃ copy,
      (∀ report : ScanReport, report.loads.Perm (i.scan settings).loads →
        i.redactWhere report config accept = .ok copy) ∧
      (∃ entries : List Nat, entries.Pairwise (· < ·) ∧
        (∀ entry, entry ∈ entries ↔
          ∃ load ∈ (i.scan settings).loads, accept load = true ∧ load.entry = entry) ∧
        List.Forall₂ (fun entry span => ∀ load ∈ (i.scan settings).loads, load.entry = entry →
          load.payload = span) entries copy.patched) ∧
      copy.patched.Pairwise (fun a b => a.stop < b.start) ∧
      (∀ span ∈ copy.patched, span.start ≤ span.stop) ∧
      copy.patchedBytes = (Span.covered data.size copy.patched).card) ∧
    (∃ copy, i.redactWhere (i.scan settings) config (fun _ => true) = .ok copy ∧
      copy.patched = (i.scan settings).unique.map StringLoad.payload) ∧
    ∀ p q : StringLoad → Bool, ∃ copy copyP copyQ : RedactedImage,
      i.redactWhere (i.scan settings) config (fun load => p load || q load) = .ok copy ∧
      i.redactWhere (i.scan settings) config p = .ok copyP ∧
      i.redactWhere (i.scan settings) config q = .ok copyQ ∧
      (∃ filled, (RedactedImage.ofBytes data).fillAll (copyP.patched ++ copyQ.patched)
        config.filler = .ok filled ∧ filled.data = copy.data) ∧
      ∃ filled, (RedactedImage.ofBytes data).fillAll (copyQ.patched ++ copyP.patched)
        config.filler = .ok filled ∧ filled.data = copy.data := by
  have loaded := ofBytes_eq_ok.1 loads
  rw [← data_of_loaded loaded]
  have redacted (accept : StringLoad → Bool) : i.redactWhere (i.scan settings) config accept = _ :=
    redactWhere_eq_targets loaded (fun _ => Iff.rfl) config accept
  refine ⟨fun accept => ?_, ?_, fun p q => ?_⟩
  · have ordered := ScanReport.ordered_entries (i.scan settings) accept
    have payloads := forall₂_targets loaded accept fun load =>
      @Iff.rfl (load ∈ (i.scan settings).loads)
    refine ⟨_, fun report perm => redactWhere_eq_targets loaded (fun _ => perm.mem_iff) config accept,
      ⟨_, ordered, fun entry => ScanReport.mem_entries, payloads⟩, targets_apart loaded accept,
      fun span mem => (targets_fit loaded mem).1, ?_⟩
    exact (Span.foldl_length_eq_card 0 (ordered_targets loaded accept)
      fun span mem => targets_fit loaded mem).trans (Nat.zero_add _)
  · refine ⟨_, redacted _, ?_⟩
    rw [ScanReport.targets, ScanReport.unique, List.filter_true]
  · refine ⟨_, _, _, redacted _, redacted p, redacted q, fill_targets_or loaded _ ?_,
      fill_targets_or loaded _ ?_⟩
    · exact fun span => List.mem_append
    · exact fun span => List.mem_append.trans or_comm

/--
The small image with one more load in its first method and in its second one, both of the
empty entry at the start of the heap.
-/
def sharedImage : Bytes := (smallImage.setIfInBounds 527 0x2E).setIfInBounds 535 0

theorem redactWhere_selects_shared :
    ∃ i copy, Image.ofBytes sharedImage = .ok i ∧
      (i.scan .standard).loads.map (fun load => (load.rid, load.entry, load.payload)) =
        [(1, 1, ⟨522, 526⟩), (1, 0, ⟨521, 521⟩), (2, 0, ⟨521, 521⟩)] ∧
      i.redactWhere (i.scan .standard) .lenient (fun load => load.rid = 1) = .ok copy ∧
      copy.patched = [⟨521, 521⟩, ⟨522, 526⟩] ∧ copy.patchedBytes = 4 := by
  obtain ⟨i, loads, found⟩ : ∃ i, Image.ofBytes sharedImage = .ok i ∧
      (i.scan .standard).loads.map (fun load => (load.rid, load.entry, load.payload)) =
        [(1, 1, ⟨522, 526⟩), (1, 0, ⟨521, 521⟩), (2, 0, ⟨521, 521⟩)] :=
    Except.exists_of_check (by decide +kernel)
  obtain ⟨selects, -⟩ := redactWhere_selects loads .standard .lenient
  obtain ⟨copy, redacted, ⟨entries, ordered, selected, payloads⟩, -⟩ :=
    selects fun load => load.rid = 1
  obtain ⟨first, _, whole, one, rest⟩ := List.map_eq_cons_iff.1 found
  obtain ⟨second, _, rfl, two, rest⟩ := List.map_eq_cons_iff.1 rest
  obtain ⟨third, _, rfl, three, rest⟩ := List.map_eq_cons_iff.1 rest
  obtain rfl := List.map_eq_nil_iff.1 rest
  simp only [Prod.mk.injEq] at one two three
  have both : entries = [0, 1] := by
    refine ordered.eq_of_mem_iff (by decide) fun entry => ?_
    rw [selected, whole]
    simp [one, two, three, eq_comm, or_comm]
  have patched : copy.patched = [⟨521, 521⟩, ⟨522, 526⟩] := by
    rw [both, whole] at payloads
    generalize copy.patched = patched at payloads
    obtain _ | ⟨empty, _ | ⟨full, _ | _⟩⟩ := payloads
    rw [← empty second (by simp) two.2.1, ← full first (by simp) one.2.1, one.2.2, two.2.2]
  refine ⟨i, copy, loads, found, redacted _ (.refl _), patched, ?_⟩
  rw [RedactedImage.patchedBytes, patched]
  rfl

end Image

end ManagedImage
