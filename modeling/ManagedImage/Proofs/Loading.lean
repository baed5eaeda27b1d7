/-
What a loaded image has. Loading succeeds exactly if each of its stages does
(`ofBytes_eq_ok`), and a stage exactly if each of its parts does
(`Root.place_eq_ok`, `checkHeaps_eq_ok`). The heap of user strings of a loaded image is the part of the
file that its stream takes (`userStrings?_of_span`). The rows of the table of
methods are numbered from one (`methodDefs_rids`), and each of them has a body,
a failure or neither (`MethodBodies.mem_found`, `MethodBodies.mem_failures`).
-/
import Mathlib.Data.List.Forall2
import ManagedImage.Image
import ManagedImage.Proofs.TableLayout

namespace ManagedImage

theorem Except.mapM_eq_ok {ε α β : Type} {f : α → Except ε β} {l : List α} {r : List β} :
    l.mapM f = .ok r ↔ List.Forall₂ (fun a b => f a = .ok b) l r := by
  induction l generalizing r with
  | nil =>
    rw [List.mapM_nil, List.forall₂_nil_left_iff]
    exact ⟨fun h => (Except.ok.inj h).symm, fun h => h ▸ rfl⟩
  | cons a l ih =>
    rw [List.mapM_cons, Except.bind_eq_ok, List.forall₂_cons_left_iff]
    constructor
    · rintro ⟨b, first, h⟩
      obtain ⟨later, rest, h⟩ := Except.bind_eq_ok.1 h
      cases h
      exact ⟨b, later, first, ih.1 rest, rfl⟩
    · rintro ⟨b, later, first, rest, rfl⟩
      exact ⟨b, first, Except.bind_eq_ok.2 ⟨later, ih.2 rest, rfl⟩⟩

theorem Except.mapM_eq_error {ε α β : Type} {f : α → Except ε β} {l : List α} {e : ε}
    (h : l.mapM f = .error e) : ∃ a ∈ l, f a = .error e := by
  induction l with
  | nil => cases h
  | cons a l ih =>
    rw [List.mapM_cons, Except.bind_eq_error] at h
    rcases h with first | ⟨b, -, h⟩
    · exact ⟨a, List.mem_cons_self, first⟩
    · rcases Except.bind_eq_error.1 h with later | ⟨_, -, ⟨⟩⟩
      obtain ⟨a', mem, failed⟩ := ih later
      exact ⟨a', List.mem_cons_of_mem _ mem, failed⟩

theorem forall₂_of_mem {α β : Type} {R : α → β → Prop} {as : List α} {bs : List β}
    (h : List.Forall₂ R as bs) {a : α} (mem : a ∈ as) : ∃ b ∈ bs, R a b := by
  induction h with
  | nil => cases mem
  | @cons a' b as bs first later ih =>
    rcases List.mem_cons.1 mem with rfl | mem
    · exact ⟨b, List.mem_cons_self, first⟩
    · obtain ⟨b', there, related⟩ := ih mem
      exact ⟨b', List.mem_cons_of_mem _ there, related⟩

/-! ## The file -/

theorem File.ofBytes_eq_ok {data : Bytes} {f : File} :
    File.ofBytes data = .ok f ↔
      data.isEmpty = false ∧ f.data = data ∧ Headers.read.run data = .ok f.headers := by
  unfold ofBytes
  cases empty : data.isEmpty with
  | true =>
    constructor
    · intro h; cases h
    · rintro ⟨⟨⟩, -⟩
  | false =>
    simp only [Except.bind_eq_ok, Bool.false_eq_true, if_false]
    constructor
    · rintro ⟨headers, read, h⟩
      cases h
      exact ⟨trivial, rfl, read⟩
    · rintro ⟨-, rfl, read⟩
      exact ⟨f.headers, read, rfl⟩

/-- An address lies in the file where the sections have it, if that is not behind the end. -/
theorem File.fileOffset_eq_ok {f : File} {rva : UInt32} {offset : Nat} :
    f.fileOffset rva = .ok offset ↔
      f.headers.sections.fileOffset rva = .ok offset ∧ offset < f.data.size := by
  unfold fileOffset
  rw [Except.bind_eq_ok]
  constructor
  · rintro ⟨found, there, h⟩
    split at h
    case isTrue inside => cases h; exact ⟨there, inside⟩
    case isFalse => cases h
  · rintro ⟨there, inside⟩
    exact ⟨offset, there, if_pos inside⟩

/-! ## The streams -/

theorem Stream.place_eq_ok {address : UInt32} {fileOffset : UInt32 → Except Error Nat}
    {h : StreamHeader} {s : Stream} :
    Stream.place address fileOffset h = .ok s ↔
      address.toNat + h.offset.toNat < 0x100000000 ∧
        ∃ offset, fileOffset (address + h.offset) = .ok offset ∧ s = ⟨h, offset⟩ := by
  unfold place
  split
  case isTrue fits =>
    rw [Except.bind_eq_ok]
    constructor
    · rintro ⟨offset, found, answer⟩
      cases answer
      exact ⟨fits, offset, found, rfl⟩
    · rintro ⟨-, offset, found, rfl⟩
      exact ⟨offset, found, rfl⟩
  case isFalse wraps => exact ⟨nofun, fun h => absurd h.1 wraps⟩

theorem Root.place_eq_ok {r : Root} {address : UInt32} {fileOffset : UInt32 → Except Error Nat}
    {streams : List Stream} :
    (r.place address fileOffset).toExcept = .ok streams ↔
      List.Forall₂ (fun h s => Stream.place address fileOffset h = .ok s) r.streams streams := by
  rw [place, Progress.toExcept_traverse]
  exact Except.mapM_eq_ok

namespace Image

/-- The stages of loading, each of which succeeded. -/
structure Loaded (data : Bytes) (i : Image) : Prop where
  file : File.ofBytes data = .ok i.file
  cliHeader : readCliHeader i.file = .ok i.cliHeader
  root : ∃ metadata, metadataBytes i.file i.cliHeader = .ok metadata ∧ Root.read metadata = .ok i.root
  streams : (i.root.place i.cliHeader.metadata.rva i.file.fileOffset).toExcept = .ok i.streams
  tables : ∃ stream, tablesBytes i.file i.streams = .ok stream ∧ Tables.read stream = .ok i.tables
  heaps : checkHeaps i.file.data i.streams = .ok ()

theorem ofBytes_eq_ok {data : Bytes} {i : Image} : ofBytes data = .ok i ↔ Loaded data i := by
  unfold ofBytes ofFile
  simp only [Except.bind_eq_ok]
  constructor
  · rintro ⟨file, opened, header, cli, metadata, found, root, read, streams, placed, stream, there,
      tables, decoded, ⟨⟩, heaps, answer⟩
    cases answer
    exact ⟨opened, cli, ⟨metadata, found, read⟩, placed, ⟨stream, there, decoded⟩, heaps⟩
  · rintro ⟨opened, cli, ⟨metadata, found, read⟩, placed, ⟨stream, there, decoded⟩, heaps⟩
    exact ⟨i.file, opened, i.cliHeader, cli, metadata, found, i.root, read, i.streams, placed, stream,
      there, i.tables, decoded, (), heaps, rfl⟩

/-! ## The heap of user strings -/

/-- A heap that is opened is opened from the part of the file that its stream takes. -/
theorem openHeap_eq_ok {α : Type} {data : Bytes} {streams : List Stream} {name : String}
    {make : Bytes → Except Error α} {heap : Option α}
    (h : openHeap data streams name make = .ok heap) {s : Stream}
    (found : findStream? streams name = some s) :
    ∃ bytes a, data.slice s.fileOffset s.size.toNat = .ok bytes ∧ make bytes = .ok a ∧
      heap = some a := by
  unfold openHeap streamBytes at h
  rw [found] at h
  obtain ⟨bytes?, cut, h⟩ := Except.bind_eq_ok.1 h
  have cut : some <$> data.slice s.fileOffset s.size.toNat = .ok bytes? := cut
  obtain ⟨bytes, sliced, rfl⟩ := Except.map_eq_ok.1 cut
  obtain ⟨a, made, rfl⟩ := Except.map_eq_ok.1 h
  exact ⟨bytes, a, sliced, made, rfl⟩

theorem checkHeaps_eq_ok {data : Bytes} {streams : List Stream} :
    checkHeaps data streams = .ok () ↔
      (∃ heap, openHeap data streams "#Strings" StringHeap.ofBytes = .ok heap) ∧
      (∃ heap, openHeap data streams "#US" UserStringHeap.ofBytes = .ok heap) ∧
      (∃ heap, openHeap data streams "#GUID" GuidHeap.ofBytes = .ok heap) ∧
      ∃ heap, openHeap data streams "#Blob" BlobHeap.ofBytes = .ok heap := by
  unfold checkHeaps
  constructor
  · intro heaps
    obtain ⟨_, strings, heaps⟩ := Except.bind_eq_ok.1 heaps
    obtain ⟨_, userStrings, heaps⟩ := Except.bind_eq_ok.1 heaps
    obtain ⟨_, guids, blobs⟩ := Except.bind_eq_ok.1 heaps
    obtain ⟨strings, opened, -⟩ := Except.map_eq_ok.1 strings
    obtain ⟨userStrings, opened', -⟩ := Except.map_eq_ok.1 userStrings
    obtain ⟨guids, opened'', -⟩ := Except.map_eq_ok.1 guids
    obtain ⟨blobs, opened''', -⟩ := Except.map_eq_ok.1 blobs
    exact ⟨⟨strings, opened⟩, ⟨userStrings, opened'⟩, ⟨guids, opened''⟩, ⟨blobs, opened'''⟩⟩
  · rintro ⟨⟨_, strings⟩, ⟨_, userStrings⟩, ⟨_, guids⟩, ⟨_, blobs⟩⟩
    rw [strings, userStrings, guids, blobs]
    rfl

theorem Loaded.heaps_open {data : Bytes} {i : Image} (loaded : Loaded data i) :
    (∃ heap, openHeap i.data i.streams "#Strings" StringHeap.ofBytes = .ok heap) ∧
      (∃ heap, openHeap i.data i.streams "#US" UserStringHeap.ofBytes = .ok heap) ∧
      (∃ heap, openHeap i.data i.streams "#GUID" GuidHeap.ofBytes = .ok heap) ∧
      ∃ heap, openHeap i.data i.streams "#Blob" BlobHeap.ofBytes = .ok heap :=
  checkHeaps_eq_ok.1 loaded.heaps

/-- The heap that takes a span of the file. -/
def userStringsIn (data : Bytes) (span : Span) : UserStringHeap := ⟨data.extract span.start span.stop⟩

variable {data : Bytes} {i : Image}

theorem userStrings?_of_span (loaded : Loaded data i) {us : Span}
    (span : i.streamSpan? "#US" = some us) :
    i.userStrings? = some (userStringsIn i.data us) ∧ us.start ≤ us.stop ∧ us.stop ≤ i.data.size := by
  obtain ⟨s, found, rfl⟩ := Option.map_eq_some_iff.1 span
  obtain ⟨-, ⟨heap, opened⟩, -⟩ := loaded.heaps_open
  obtain ⟨bytes, a, cut, made, rfl⟩ := openHeap_eq_ok opened found
  obtain ⟨fits, rfl⟩ := Bytes.slice_eq_ok.1 cut
  refine ⟨?_, Nat.le_add_right .., fits⟩
  unfold userStrings? heap?
  rw [opened]
  unfold UserStringHeap.ofBytes at made
  split at made
  · cases made; rfl
  · cases made

theorem userStrings?_of_no_span (h : i.streamSpan? "#US" = none) : i.userStrings? = none := by
  have none : findStream? i.streams "#US" = none := Option.map_eq_none_iff.1 h
  unfold userStrings? heap? openHeap streamBytes
  rw [none]
  rfl

end Image

/-! ## The rows of the table of methods -/

theorem Tables.readTable_rids {γ : Type} [Columns γ] [LawfulColumns γ] {stream : Bytes} {s : Schema}
    {placements : List Placement} {t : Table γ} (h : readTable γ stream s placements = .ok t) :
    t.rows.toList.map Row.rid = List.range' 1 t.rowCount := by
  unfold readTable at h
  split at h
  · exact (Table.read_eq_ok h).2.rids
  · cases h; rfl

theorem Tables.methodDefs_rids {stream : Bytes} {t : Tables} (h : Tables.read stream = .ok t) :
    t.methodDefs.rows.toList.map Row.rid = List.range' 1 t.methodDefs.rowCount :=
  readTable_rids (read_eq_ok.1 h).methodDefs

theorem Image.methods_nodup {data : Bytes} {i : Image} (loaded : Image.Loaded data i) :
    (i.tables.methodDefs.rows.toList.map Row.rid).Nodup := by
  obtain ⟨stream, -, read⟩ := loaded.tables
  rw [Tables.methodDefs_rids read]
  exact List.nodup_range'

/-! ## What became of each method -/

namespace MethodBodies

variable {f : File} {methods : List (Row MethodDefColumns)}

theorem locate_cons (f : File) (method : Row MethodDefColumns) (methods : List (Row MethodDefColumns)) :
    locate f (method :: methods) = (locate f methods).add method (MethodCode.locate f method) := rfl

theorem mem_found {code : MethodCode} :
    code ∈ (locate f methods).found ↔
      ∃ method ∈ methods, MethodCode.locate f method = .ok (some code) := by
  induction methods with
  | nil => simp [locate]
  | cons method methods ih =>
    simp only [List.mem_cons, exists_eq_or_imp, ← ih]
    rw [locate_cons]
    cases MethodCode.locate f method with
    | error e => simp [add]
    | ok found? => cases found? <;> simp [add, eq_comm]

theorem mem_failures {failure : MethodFailure} :
    failure ∈ (locate f methods).failures ↔
      ∃ method ∈ methods, ∃ e, MethodCode.locate f method = .error e ∧
        failure = ⟨method.rid, method.token, e⟩ := by
  induction methods with
  | nil => simp [locate]
  | cons method methods ih =>
    simp only [List.mem_cons, exists_eq_or_imp, ← ih]
    rw [locate_cons]
    cases MethodCode.locate f method with
    | error e => simp [add]
    | ok found? => cases found? <;> simp [add]

theorem rid_of_locate {method : Row MethodDefColumns} {code : MethodCode}
    (found : MethodCode.locate f method = .ok (some code)) : code.rid = method.rid := by
  unfold MethodCode.locate at found
  split at found
  · obtain ⟨offset, -, found⟩ := Except.bind_eq_ok.1 found
    obtain ⟨body, -, found⟩ := Except.bind_eq_ok.1 found
    cases found
    rfl
  · cases found

theorem found_rids_sublist (f : File) (methods : List (Row MethodDefColumns)) :
    ((locate f methods).found.map MethodCode.rid).Sublist (methods.map Row.rid) := by
  induction methods with
  | nil => exact .slnil
  | cons method methods ih =>
    rw [locate_cons]
    cases outcome : MethodCode.locate f method with
    | error e => exact ih.cons _
    | ok found? =>
      cases found? with
      | none => exact ih.cons _
      | some code =>
        show List.Sublist (code.rid :: _) (method.rid :: _)
        rw [rid_of_locate outcome]
        exact ih.cons_cons _

theorem codeSpan_fits {f : File} {method : Row MethodDefColumns} {code : MethodCode}
    (found : MethodCode.locate f method = .ok (some code)) :
    code.body.codeSpan.start ≤ code.body.codeSpan.stop ∧ code.body.codeSpan.stop ≤ f.data.size := by
  refine ⟨Nat.le_add_right .., ?_⟩
  unfold MethodCode.locate at found
  split at found
  · obtain ⟨offset, -, found⟩ := Except.bind_eq_ok.1 found
    obtain ⟨body, read, found⟩ := Except.bind_eq_ok.1 found
    cases found
    obtain ⟨body', -, read⟩ := Except.bind_eq_ok.1 read
    split at read
    · cases read
    · rename_i fits
      cases read
      exact Nat.le_of_not_lt fits
  · cases found

end MethodBodies

/-! ## The bytes of a loaded image -/

theorem Image.data_of_loaded {data : Bytes} {i : Image} (loaded : Image.Loaded data i) :
    i.data = data := (File.ofBytes_eq_ok.1 loaded.file).2.1

/-! ## A small image -/

/--
An image of one section, which is the whole file at address `0x1000`. It has two
methods, each with a single string load, and a heap of user strings with one
entry, `AB`. The first method loads the entry, the second a position inside it.
-/
def smallImage : Bytes :=
  let half := Bytes.leBytes 2
  let word := Bytes.leBytes 4
  let zeros := fun n => List.replicate n 0
  -- the stub header up to its last field, the signature and the file header
  (half 0x5A4D ++ zeros 58 ++ word 64 ++
    [0x50, 0x45, 0, 0] ++ half 0x14C ++ half 1 ++ zeros 12 ++ half 216 ++ half 0 ++
  -- the optional header; of its fifteen directories only the last points anywhere
    half 0x10B ++ zeros 90 ++ word 15 ++ zeros 112 ++ word 0x1158 ++ word 72 ++
  -- the section and the CLI header
    zeros 8 ++ word 539 ++ word 0x1000 ++ word 539 ++ zeros 20 ++
    word 72 ++ zeros 4 ++ word 0x11A0 ++ word 111 ++ zeros 56 ++
  -- the metadata root and its two streams
    word 0x424A5342 ++ zeros 8 ++ word 4 ++ [0x76, 0, 0, 0] ++ half 0 ++ half 2 ++
    word 48 ++ word 56 ++ [0x23, 0x7E, 0, 0] ++
    word 104 ++ word 7 ++ [0x23, 0x55, 0x53, 0] ++
  -- the table of methods, the heap and the code
    word 0 ++ [2, 0, 0, 1] ++ word 0x40 ++ zeros 12 ++ word 2 ++
    word 0x120F ++ zeros 8 ++ half 1 ++ word 0x1215 ++ zeros 8 ++ half 1 ++
    [0, 5, 0x41, 0, 0x42, 0, 0] ++
    [0x16, 0x72] ++ word 0x70000001 ++ [0x16, 0x72] ++ word 0x70000002).toArray

/-- The small image loads, with what can be checked of it. -/
theorem exists_smallImage {p : Image → Prop} [DecidablePred p]
    (check : (Image.ofBytes smallImage).toOption.any (fun i => decide (p i)) = true) :
    ∃ i, Image.ofBytes smallImage = .ok i ∧ p i :=
  Except.exists_of_check check

end ManagedImage
