/-
Images with data behind their end, which signatures and installers append. The
size of the file enters every check of a bound, so more bytes make more accesses
succeed; but what succeeds on the shorter file answers the same on the longer one
(`Stable`). Hence an image that loads also loads with the data behind it, with the
same headers, tables and heaps, and what is scanned without failure is scanned as
before (`Image.scan_redact_append`).

What does not carry over are failures. The code of a method may reach past the end
of the shorter file and lie in the longer one, so a method that fails may be
scanned once there is more data.
-/
import ManagedImage.Proofs.MethodAccount
import ManagedImage.Proofs.PayloadRedaction
import ManagedImage.Proofs.ReadSpans

namespace ManagedImage

open Reader

/-! ## Longer vectors -/

namespace Bytes

/-- The bytes of `a` are the first ones of `b`. -/
structure Extends (a b : Bytes) : Prop where
  size : a.size ≤ b.size
  agree : a.Agree b 0 a.size

theorem extends_append (a s : Bytes) : Extends a (a ++ s) where
  size := by rw [Array.size_append]; exact Nat.le_add_right ..
  agree _ _ inside := (Array.getElem?_append_left inside).symm

variable {a b : Bytes}

theorem Extends.slice (longer : Extends a b) {offset length : Nat} {part : Bytes}
    (cut : a.slice offset length = .ok part) : b.slice offset length = .ok part := by
  obtain ⟨fits, rfl⟩ := slice_eq_ok.1 cut
  have fits' := Nat.le_trans fits longer.size
  refine slice_eq_ok.2 ⟨fits', ?_⟩
  exact (longer.agree.mono (Nat.zero_le _) fits).extract fits fits'

/-- Overwriting ranges of the front leaves what is behind it. -/
theorem overwrite_append (filler : UInt8) (a s : Bytes) {pos n : Nat} (fits : pos + n ≤ a.size) :
    (a ++ s).overwrite filler pos n = a.overwrite filler pos n ++ s := by
  induction n generalizing a pos with
  | zero => rfl
  | succ n ih =>
    have first : (a ++ s).setIfInBounds pos filler = a.setIfInBounds pos filler ++ s :=
      Array.setIfInBounds_append_left (by omega)
    rw [overwrite, first, ih _ (by rw [Array.size_setIfInBounds]; omega)]
    rfl

theorem overwriteAll_append (filler : UInt8) (a s : Bytes) {spans : List Span}
    (inside : ∀ span ∈ spans, span.start ≤ span.stop ∧ span.stop ≤ a.size) :
    (a ++ s).overwriteAll filler spans = a.overwriteAll filler spans ++ s := by
  induction spans generalizing a with
  | nil => rfl
  | cons span spans ih =>
    obtain ⟨order, fits⟩ := inside span List.mem_cons_self
    have first : (a ++ s).overwrite filler span.start span.length =
        a.overwrite filler span.start span.length ++ s :=
      overwrite_append filler a s (by rw [Span.length]; omega)
    show ((a ++ s).overwrite filler span.start span.length).overwriteAll filler spans = _
    rw [first, ih _ fun other mem => by
      rw [size_overwrite]; exact inside other (List.mem_cons_of_mem _ mem)]
    rfl

end Bytes

namespace Reader

variable {α β : Type}

/-- A success within a vector is the same success within a longer one. -/
class Stable (r : Reader α) : Prop where
  keeps : ∀ {a b : Bytes} {pos : Nat} {v : α} {c' : Cursor}, r ⟨a, pos⟩ = .ok v c' →
    pos ≤ a.size → a.Extends b →
    c'.data = a ∧ c'.pos ≤ a.size ∧ r ⟨b, pos⟩ = .ok v ⟨b, c'.pos⟩

instance (priority := low) {r : Reader α} [Local r] [Within r] : Stable r where
  keeps {a _ _ _ _} h inside longer := by
    obtain ⟨data, -⟩ := Local.keeps h
    have stop := Within.inside h inside
    rw [Cursor.InBounds, data] at stop
    exact ⟨data, stop, Local.carries h longer.size (longer.agree.mono (Nat.zero_le _) stop)⟩

instance {r : Reader α} {f : α → Reader β} [Stable r] [∀ a, Stable (f a)] : Stable (r >>= f) where
  keeps h inside longer := by
    obtain ⟨v, ⟨data, pos⟩, first, second⟩ := bind_eq_ok.1 h
    obtain ⟨rfl, stop, first'⟩ := Stable.keeps first inside longer
    obtain ⟨same, stop', second'⟩ := Stable.keeps second stop longer
    exact ⟨same, stop', bind_eq_ok.2 ⟨v, _, first', second'⟩⟩

instance {p : Prop} [Decidable p] {r s : Reader α} [Stable r] [Stable s] :
    Stable (if p then r else s) := by split <;> infer_instance

instance (target : Nat) : Stable (seek target) where
  keeps {a b _ _ _} h _ longer := by
    unfold seek at h ⊢
    by_cases there : target ≤ a.size
    · rw [if_pos there] at h
      cases h
      exact ⟨rfl, there, if_pos (Nat.le_trans there longer.size)⟩
    · rw [if_neg there] at h
      cases h

instance {r : Reader α} [Stable r] : Stable (peek r) where
  keeps {a b pos _ _} h inside longer := by
    unfold peek at h ⊢
    cases first : r ⟨a, pos⟩ with
    | error e c => rw [first] at h; cases h
    | ok v c =>
      rw [first] at h
      cases h
      obtain ⟨-, -, again⟩ := Stable.keeps first inside longer
      exact ⟨rfl, inside, by rw [again]⟩

theorem Stable.runAt {r : Reader α} [Stable r] {a b : Bytes} {pos : Nat} {v : α}
    (h : r.runAt a pos = .ok v) (inside : pos ≤ a.size) (longer : a.Extends b) :
    r.runAt b pos = .ok v := by
  rw [runAt_eq_outcome] at h ⊢
  unfold outcome at h ⊢
  cases first : r ⟨a, pos⟩ with
  | error e c => rw [first] at h; cases h
  | ok w c =>
    rw [first] at h
    rw [(Stable.keeps first inside longer).2.2]
    exact h

end Reader

/-! ## The headers of the file -/

instance : Stable Headers.read := by unfold Headers.read; infer_instance

/-! ## Method bodies -/

namespace MethodBody

instance (first : UInt8) : Stable (readFat first) := by unfold readFat; dsimp only; infer_instance
instance : Stable readHeader := by unfold readHeader; infer_instance

theorem read_of_longer {a b : Bytes} {offset : Nat} {body : MethodBody}
    (h : read a offset = .ok body) (inside : offset ≤ a.size) (longer : a.Extends b) :
    read b offset = .ok body := by
  obtain ⟨body', header, h⟩ := Except.bind_eq_ok.1 h
  refine Except.bind_eq_ok.2 ⟨body', Stable.runAt header inside longer, ?_⟩
  split at h
  case isTrue => cases h
  case isFalse fits => rw [if_neg fun past => fits (Nat.lt_of_le_of_lt longer.size past)]; exact h

end MethodBody

namespace File

variable {f : File} {b : Bytes}

theorem fileOffset_of_longer (longer : f.data.Extends b) {rva : UInt32} {offset : Nat}
    (found : f.fileOffset rva = .ok offset) : (f.withData b).fileOffset rva = .ok offset := by
  obtain ⟨place, inside⟩ := fileOffset_eq_ok.1 found
  exact fileOffset_eq_ok.2 ⟨place, Nat.lt_of_lt_of_le inside longer.size⟩

theorem sliceAt_of_longer (longer : f.data.Extends b) {rva : UInt32} {length : Nat} {part : Bytes}
    (cut : f.sliceAt rva length = .ok part) : (f.withData b).sliceAt rva length = .ok part := by
  obtain ⟨offset, found, cut⟩ := Except.bind_eq_ok.1 cut
  exact Except.bind_eq_ok.2 ⟨offset, fileOffset_of_longer longer found, longer.slice cut⟩

end File

theorem MethodCode.locate_of_longer {f : File} {b : Bytes} (longer : f.data.Extends b)
    {method : Row MethodDefColumns} {code? : Option MethodCode}
    (found : MethodCode.locate f method = .ok code?) :
    MethodCode.locate (f.withData b) method = .ok code? := by
  unfold MethodCode.locate at found ⊢
  split at found
  case isTrue hasBody =>
    obtain ⟨offset, place, found⟩ := Except.bind_eq_ok.1 found
    obtain ⟨body, read, found⟩ := Except.bind_eq_ok.1 found
    have inside := Nat.le_of_lt (File.fileOffset_eq_ok.1 place).2
    rw [if_pos hasBody]
    exact Except.bind_eq_ok.2 ⟨offset, File.fileOffset_of_longer longer place,
      Except.bind_eq_ok.2 ⟨body, MethodBody.read_of_longer read inside longer, found⟩⟩
  case isFalse noBody => rw [if_neg noBody]; exact found

/-! ## Loading -/

namespace Image

variable {data b : Bytes} {i : Image}

theorem openHeap_of_longer (longer : data.Extends b) {α : Type} {streams : List Stream}
    {name : String} {make : Bytes → Except Error α} {heap : Option α}
    (opened : openHeap data streams name make = .ok heap) :
    openHeap b streams name make = .ok heap := by
  obtain ⟨bytes?, cut, made⟩ := Except.bind_eq_ok.1 opened
  refine Except.bind_eq_ok.2 ⟨bytes?, ?_, made⟩
  unfold streamBytes at cut ⊢
  cases found : findStream? streams name with
  | none => rw [found] at cut; exact cut
  | some s =>
    rw [found] at cut
    obtain ⟨bytes, sliced, rfl⟩ := Except.map_eq_ok.1 cut
    exact Except.map_eq_ok.2 ⟨bytes, longer.slice sliced, rfl⟩

/-- Each stage of loading answers the same on a longer file. -/
theorem loaded_of_longer (loaded : Loaded data i) (longer : i.data.Extends b) :
    Loaded b (i.withData b) where
  file := by
    obtain ⟨filled, same, read⟩ := File.ofBytes_eq_ok.1 loaded.file
    have longer : i.file.data.Extends b := longer
    rw [same] at longer
    refine File.ofBytes_eq_ok.2 ⟨?_, rfl, Stable.runAt read (Nat.zero_le _) longer⟩
    have some : data.size ≠ 0 := by simpa [Array.isEmpty] using filled
    have size := longer.size
    simp only [Array.isEmpty, decide_eq_false_iff_not]
    omega
  cliHeader := by
    have read := loaded.cliHeader
    unfold readCliHeader at read ⊢
    have same : (i.withData b).file.cliDirectory? = i.file.cliDirectory? := rfl
    rw [same]
    cases known : i.file.cliDirectory? with
    | none => rw [known] at read; cases read
    | some directory =>
      rw [known] at read
      obtain ⟨bytes, cut, read⟩ := Except.bind_eq_ok.1 read
      exact Except.bind_eq_ok.2 ⟨bytes, File.sliceAt_of_longer longer cut, read⟩
  root := by
    obtain ⟨metadata, cut, read⟩ := loaded.root
    exact ⟨metadata, File.sliceAt_of_longer longer cut, read⟩
  streams := by
    refine Root.place_eq_ok.2 ((Root.place_eq_ok.1 loaded.streams).imp fun _ _ placed => ?_)
    obtain ⟨fits, offset, found, rfl⟩ := Stream.place_eq_ok.1 placed
    exact Stream.place_eq_ok.2 ⟨fits, offset, File.fileOffset_of_longer longer found, rfl⟩
  tables := by
    obtain ⟨stream, cut, read⟩ := loaded.tables
    obtain ⟨s, known, cut⟩ := Except.bind_eq_ok.1 cut
    exact ⟨stream, Except.bind_eq_ok.2 ⟨s, known, longer.slice cut⟩, read⟩
  heaps := by
    obtain ⟨⟨_, strings⟩, ⟨_, userStrings⟩, ⟨_, guids⟩, ⟨_, blobs⟩⟩ := loaded.heaps_open
    exact checkHeaps_eq_ok.2 ⟨⟨_, openHeap_of_longer longer strings⟩,
      ⟨_, openHeap_of_longer longer userStrings⟩, ⟨_, openHeap_of_longer longer guids⟩,
      ⟨_, openHeap_of_longer longer blobs⟩⟩

theorem heap?_of_longer (longer : i.data.Extends b) {α : Type} {name : String}
    {make : Bytes → Except Error α}
    (opened : ∃ heap, openHeap i.data i.streams name make = .ok heap) :
    (i.withData b).heap? name make = i.heap? name make := by
  obtain ⟨heap, opened⟩ := opened
  have again : openHeap (i.withData b).data (i.withData b).streams name make = .ok heap :=
    openHeap_of_longer longer opened
  rw [heap?, heap?, opened, again]

/-- The images have the same headers, streams and tables, and heaps of the same bytes. -/
structure SameContent (i j : Image) : Prop where
  headers : j.file.headers = i.file.headers
  cliHeader : j.cliHeader = i.cliHeader
  root : j.root = i.root
  /-- The places of the streams in the file included. -/
  streams : j.streams = i.streams
  tables : j.tables = i.tables
  strings : j.strings? = i.strings?
  userStrings : j.userStrings? = i.userStrings?
  guids : j.guids? = i.guids?
  blobs : j.blobs? = i.blobs?

theorem sameContent_of_longer (loaded : Loaded data i) (longer : i.data.Extends b) :
    i.SameContent (i.withData b) := by
  obtain ⟨strings, userStrings, guids, blobs⟩ := loaded.heaps_open
  exact ⟨rfl, rfl, rfl, rfl, rfl, heap?_of_longer longer strings,
    heap?_of_longer longer userStrings, heap?_of_longer longer guids,
    heap?_of_longer longer blobs⟩

/-! ## Scanning -/

theorem found_of_longer (longer : i.data.Extends b) {code : MethodCode}
    (mem : code ∈ i.methodBodies.found) : code ∈ (i.withData b).methodBodies.found := by
  obtain ⟨method, listed, found⟩ := MethodBodies.mem_found.1 mem
  exact MethodBodies.mem_found.2 ⟨method, listed, MethodCode.locate_of_longer longer found⟩

/-- The loads are checked against the same heap at the same place. -/
theorem scope_of_longer (loaded : Loaded data i) (longer : i.data.Extends b) (config : ScanConfig) :
    LoadScope.ofImage (i.withData b) config = LoadScope.ofImage i config := by
  have heap : (i.withData b).userStrings? = i.userStrings? :=
    (sameContent_of_longer loaded longer).userStrings
  have span : (i.withData b).streamSpan? "#US" = i.streamSpan? "#US" := rfl
  rw [LoadScope.ofImage, LoadScope.ofImage, heap, span]

theorem scanMethod_of_longer (loaded : Loaded data i) (longer : i.data.Extends b)
    {config : ScanConfig} {code : MethodCode} {loads : List StringLoad}
    (scanned : (LoadScope.ofImage i config).scanMethod i.data code = .ok loads) :
    (LoadScope.ofImage (i.withData b) config).scanMethod b code = .ok loads := by
  rw [scope_of_longer loaded longer]
  obtain ⟨found, listed, resolved⟩ := Except.bind_eq_ok.1 scanned
  obtain ⟨bytes, cut, listed⟩ := Except.bind_eq_ok.1 listed
  exact Except.bind_eq_ok.2
    ⟨found, Except.bind_eq_ok.2 ⟨bytes, longer.slice cut, listed⟩, resolved⟩

theorem mem_scannedMethods {config : ScanConfig} {rid : Nat} :
    rid ∈ i.scannedMethods config ↔ ∃ code ∈ i.methodBodies.found, code.rid = rid ∧
      ∃ loads, (LoadScope.ofImage i config).scanMethod i.data code = .ok loads := by
  unfold scannedMethods
  simp only [List.mem_map, List.mem_filter, and_assoc]
  refine exists_congr fun code => and_congr_right fun _ => and_comm.trans (and_congr_right fun _ => ?_)
  cases (LoadScope.ofImage i config).scanMethod i.data code <;> simp [Except.toOption]

theorem scanned_of_longer (loaded : Loaded data i) (longer : i.data.Extends b)
    {config : ScanConfig} {rid : Nat} (mem : rid ∈ i.scannedMethods config) :
    rid ∈ (i.withData b).scannedMethods config ∧
      ((i.withData b).scan config).loads.filter (·.rid = rid) =
        (i.scan config).loads.filter (·.rid = rid) := by
  obtain ⟨code, found, rfl, loads, scanned⟩ := mem_scannedMethods.1 mem
  have found' := found_of_longer longer found
  have scanned' := scanMethod_of_longer loaded longer scanned
  refine ⟨mem_scannedMethods.2 ⟨code, found', rfl, loads, scanned'⟩, ?_⟩
  rw [scan_loads_of_rid loaded found scanned,
    scan_loads_of_rid (loaded_of_longer loaded longer) found' scanned']

/-- A method that fails on the longer file is one of the table, and is not scanned on the shorter one. -/
theorem failed_of_longer (loaded : Loaded data i) (longer : i.data.Extends b)
    {config : ScanConfig} {rid : Nat} (failed : ((i.withData b).scan config).Failed rid) :
    (i.scan config).Failed rid := by
  have loaded' := loaded_of_longer loaded longer
  have all := perm_scan loaded config
  have all' := perm_scan loaded' config
  have distinct := all'.nodup_iff.2 List.nodup_range'
  obtain ⟨failure, there, rfl⟩ := failed
  have there' : failure.rid ∈ ((i.withData b).scan config).failures.map MethodFailure.rid :=
    List.mem_map_of_mem there
  have alone := fun mem => (List.nodup_append.1 distinct).2.2 failure.rid mem failure.rid there' rfl
  have known : failure.rid ∈ List.range' 1 i.tables.methodDefs.rowCount :=
    all'.mem_iff.1 (List.mem_append_right _ there')
  rcases List.mem_append.1 (all.mem_iff.2 known) with passed | failed
  · rcases List.mem_append.1 passed with bodyless | scanned
    · exact absurd (List.mem_append_left _ bodyless) alone
    · have scanned' := (scanned_of_longer loaded longer scanned).1
      exact absurd (List.mem_append_right _ scanned') alone
  · obtain ⟨failure', there, same⟩ := List.mem_map.1 failed
    exact ⟨failure', there, same⟩

/-! ## Without failures -/

theorem bodies_of_longer (longer : i.data.Extends b) (sound : i.methodBodies.failures = []) :
    (i.withData b).methodBodies = i.methodBodies := by
  refine MethodBodies.locate_congr fun method listed => ?_
  cases outcome : MethodCode.locate i.file method with
  | ok code? => exact MethodCode.locate_of_longer longer outcome
  | error e =>
    have lost : (⟨method.rid, method.token, e⟩ : MethodFailure) ∈ i.methodBodies.failures :=
      MethodBodies.mem_failures.2 ⟨method, listed, e, outcome, rfl⟩
    rw [sound] at lost
    cases lost

/-- If nothing fails, the longer file has the same report. -/
theorem scan_of_longer (loaded : Loaded data i) (longer : i.data.Extends b) {config : ScanConfig}
    (sound : (i.scan config).failures = []) : (i.withData b).scan config = i.scan config := by
  have none := (perm_scan_failures i config).symm
  rw [sound, List.perm_nil, List.append_eq_nil_iff] at none
  have bodies := bodies_of_longer longer none.1
  have scans : ∀ code ∈ i.methodBodies.found,
      (LoadScope.ofImage (i.withData b) config).scanMethod b code =
        (LoadScope.ofImage i config).scanMethod i.data code := by
    intro code mem
    cases outcome : (LoadScope.ofImage i config).scanMethod i.data code with
    | ok loads => exact scanMethod_of_longer loaded longer outcome
    | error e =>
      have failed := ScanReport.mem_failures.2 ⟨code, mem, e, outcome, rfl⟩
      rw [none.2] at failed
      cases failed
  have reports : ScanReport.ofMethods
      ((LoadScope.ofImage (i.withData b) config).scanMethod (i.withData b).data)
        i.methodBodies.found =
      ScanReport.ofMethods ((LoadScope.ofImage i config).scanMethod i.data) i.methodBodies.found :=
    List.foldr_ext _ _ _ fun code mem report => congrArg (report.add code) (scans code mem)
  unfold scan
  rw [bodies]
  dsimp only
  rw [reports]

/--
**Data behind the end of an image changes nothing that was sound.** An image that
loads also loads with any bytes behind it, with the same headers, streams, tables
and heaps. Under every setting the methods without a body are as many, a method
that was scanned without failure is scanned so again with the same loads, and no
method fails that did not fail before. If none fails, the two reports are one, and
redaction gives the redacted bytes with the data behind them as it was.
-/
theorem scan_redact_append (h : ofBytes data = .ok i) (s : Bytes) :
    ∃ j, ofBytes (data ++ s) = .ok j ∧ j.data = data ++ s ∧ i.SameContent j ∧
      ∀ config,
        (j.scan config).withoutBody = (i.scan config).withoutBody ∧
        (∀ rid ∈ i.scannedMethods config, rid ∈ j.scannedMethods config ∧
          (j.scan config).loads.filter (·.rid = rid) =
            (i.scan config).loads.filter (·.rid = rid)) ∧
        (∀ rid, (j.scan config).Failed rid → (i.scan config).Failed rid) ∧
        ((i.scan config).failures = [] → j.scan config = i.scan config ∧
          ∀ accept, ∃ copy, i.redactWhere (i.scan config) config accept = .ok copy ∧
            j.redactWhere (j.scan config) config accept = .ok ⟨copy.data ++ s, copy.patched⟩) := by
  have loaded := ofBytes_eq_ok.1 h
  obtain rfl := data_of_loaded loaded
  have longer := Bytes.extends_append i.data s
  have loaded' := loaded_of_longer loaded longer
  refine ⟨i.withData (i.data ++ s), ofBytes_eq_ok.2 loaded', rfl,
    sameContent_of_longer loaded longer, fun config => ⟨?_, ?_, ?_, fun sound => ?_⟩⟩
  · rw [withoutBody_eq, withoutBody_eq]
    rfl
  · exact fun rid mem => scanned_of_longer loaded longer mem
  · exact fun rid failed => failed_of_longer loaded longer failed
  · have report := scan_of_longer loaded longer sound
    refine ⟨report, fun accept => ⟨_, redactWhere_eq loaded accept, ?_⟩⟩
    rw [redactWhere_eq loaded' accept, report]
    congr 2
    exact Bytes.overwriteAll_append _ _ _ fun span mem => targets_fit loaded mem

/-- The small image with the token of its second load made that of the entry. -/
def soundImage : Bytes := smallImage.setIfInBounds 535 1

theorem soundImage_scan :
    ∃ i, ofBytes soundImage = .ok i ∧ (i.scan .standard).failures = [] ∧
      (i.scan .standard).loads.map StringLoad.payload = [⟨522, 526⟩, ⟨522, 526⟩] :=
  Except.exists_of_check (by decide +kernel)

theorem scan_redact_append_sound :
    ∃ i j copy, ofBytes soundImage = .ok i ∧ ofBytes (soundImage ++ #[0x5A, 0x5A]) = .ok j ∧
      (j.scan .standard).loads.map StringLoad.payload = [⟨522, 526⟩, ⟨522, 526⟩] ∧
      i.redact (i.scan .standard) .standard = .ok copy ∧
      j.redact (j.scan .standard) .standard = .ok ⟨copy.data ++ #[0x5A, 0x5A], copy.patched⟩ := by
  obtain ⟨i, loads, sound, payloads⟩ := soundImage_scan
  obtain ⟨j, loads', -, -, all⟩ := scan_redact_append loads #[0x5A, 0x5A]
  obtain ⟨-, -, -, redacts⟩ := all .standard
  obtain ⟨report, copies⟩ := redacts sound
  obtain ⟨copy, redacted, redacted'⟩ := copies fun _ => true
  exact ⟨i, j, copy, loads, loads', report ▸ payloads, redacted, redacted'⟩

end Image

end ManagedImage
