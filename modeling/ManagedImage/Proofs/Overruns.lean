/-
Accesses that a vector cannot serve. An error about an access tells where it
begins, how many bytes it needs and how many the vector has in all. It is true of
a vector if the vector has that many bytes and the access ends behind them
(`Error.TrueOf`). A reader at any position fails with true errors only, also where
the count of bytes is a product or the cut end of a window (`Truthful`), and
sequences of readers inherit this. So does what is not read but cut out or looked
up by its address.

The rows of a table are read from the part of the stream behind its place. No row
is out of the bounds of that part, for the table was placed with all of its rows
in the stream (`Served`, `Table.not_outOfBounds_of_readTable`).
-/
import ManagedImage.Proofs.HeaderReads
import ManagedImage.Proofs.MethodScan

namespace ManagedImage

/-! ## Errors about an access -/

namespace Error

/-- The error is about an access. -/
def IsOutOfBounds : Error → Prop
  | .outOfBounds .. => True
  | _ => False

/-- The access that the error tells of ends behind the vector, whose size the error tells. -/
def Overruns (e : Error) (data : Bytes) : Prop :=
  ∃ offset needed, e = .outOfBounds offset needed data.size ∧ data.size < offset + needed

/-- What the error tells of an access, if it is about one, is true of the vector. -/
def TrueOf (e : Error) (data : Bytes) : Prop := e.IsOutOfBounds → e.Overruns data

variable {e : Error} {data : Bytes}

theorem trueOf_outOfBounds {offset needed : Nat} (past : data.size < offset + needed) :
    (outOfBounds offset needed data.size).TrueOf data :=
  fun _ => ⟨offset, needed, rfl, past⟩

theorem TrueOf.overrun {offset needed available : Nat}
    (h : (outOfBounds offset needed available).TrueOf data) :
    available = data.size ∧ available < offset + needed := by
  obtain ⟨_, _, same, past⟩ := h trivial
  cases same
  exact ⟨rfl, past⟩

theorem trueOf_of_not (other : ¬ e.IsOutOfBounds) : e.TrueOf data := fun out => absurd out other

theorem not_isOutOfBounds_of_check {α : Type} {p : Prop} [Decidable p] {value : α} {d : Defect}
    (h : (if p then .ok value else .error (.malformed d)) = (.error e : Except Error α)) :
    ¬ e.IsOutOfBounds := by
  split at h <;> cases h
  exact id

end Error

namespace Bytes

theorem trueOf_of_slice {data : Bytes} {offset length : Nat} {e : Error}
    (h : data.slice offset length = .error e) : e.TrueOf data := by
  unfold slice at h
  split at h
  · cases h
  · next lacks =>
    cases h
    exact Error.trueOf_outOfBounds (Nat.lt_of_not_le lacks)

end Bytes

namespace Reader

variable {α β : Type}

/-- The vector stays, and an error about an access is true of it. -/
class Truthful (r : Reader α) : Prop where
  stays : ∀ {c c' : Cursor} {v : α}, r c = .ok v c' → c'.data = c.data
  fails : ∀ {c c' : Cursor} {e : Error}, r c = .error e c' → e.TrueOf c.data

theorem Truthful.runAt {r : Reader α} [Truthful r] {data : Bytes} {pos : Nat} {e : Error}
    (h : r.runAt data pos = .error e) : e.TrueOf data := by
  obtain ⟨c', h⟩ := runAt_eq_error.1 h
  exact Truthful.fails h

theorem truthful_throw {e : Error} (other : ¬ e.IsOutOfBounds) :
    Truthful (throw e : Reader α) where
  stays h := by cases h
  fails h := by cases h; exact Error.trueOf_of_not other

theorem truthful_ofExcept {result : Except Error α}
    (other : ∀ e, result = .error e → ¬ e.IsOutOfBounds) : Truthful (ofExcept result) where
  stays h := by obtain ⟨-, rfl⟩ := ofExcept_eq_ok.1 h; rfl
  fails h := by
    cases result with
    | ok v => cases h
    | error e => cases h; exact Error.trueOf_of_not (other _ rfl)

instance (a : α) : Truthful (pure a : Reader α) where
  stays h := by cases h; rfl
  fails h := nomatch h

instance (d : Defect) : Truthful (malformed d : Reader α) := truthful_throw id

instance (offset : Nat) (first : UInt8) : Truthful (throw (.methodHeader offset first) : Reader α) :=
  truthful_throw id

instance (number : Nat) : Truthful (throw (.unsupportedTable number) : Reader α) := truthful_throw id

theorem Truthful.bind {r : Reader α} {f : α → Reader β} (_ : Truthful r) (_ : ∀ a, Truthful (f a)) :
    Truthful (r >>= f) where
  stays h := by
    obtain ⟨a, c₁, first, second⟩ := bind_eq_ok.1 h
    exact (Truthful.stays second).trans (Truthful.stays first)
  fails h := by
    rcases bind_eq_error.1 h with failed | ⟨a, c₁, first, failed⟩
    · exact Truthful.fails failed
    · rw [← Truthful.stays first]
      exact Truthful.fails failed

instance {r : Reader α} {f : α → Reader β} [Truthful r] [∀ a, Truthful (f a)] : Truthful (r >>= f) :=
  Truthful.bind inferInstance inferInstance

instance {r : Reader α} {f : α → β} [Truthful r] : Truthful (f <$> r) :=
  inferInstanceAs (Truthful (r >>= fun a => pure (f a)))

instance {p : Prop} [Decidable p] {r s : Reader α} [Truthful r] [Truthful s] :
    Truthful (if p then r else s) := by split <;> infer_instance

/- A failed check ends the reading, whatever would follow it. -/
instance (priority := 2000) {d : Defect} {f : α → Reader β} : Truthful (malformed d >>= f) where
  stays h := nomatch h
  fails h := Truthful.fails (r := malformed d) h

instance : Truthful position where
  stays h := by cases h; rfl
  fails h := nomatch h

instance : Truthful (get : Reader Cursor) where
  stays h := by cases h; rfl
  fails h := nomatch h

instance (n : Nat) : Truthful (nat n) where
  stays h := by obtain ⟨-, -, rfl⟩ := nat_keeps h; rfl
  fails h := by
    unfold nat at h
    split at h
    · cases h
    · next lacks => cases h; exact Error.trueOf_outOfBounds (Nat.lt_of_not_le lacks)

/-- Where `n` more bytes are not there, they would end behind the vector. -/
theorem past_of_remaining {c : Cursor} {n : Nat} (lacks : ¬ n ≤ c.remaining) :
    c.data.size < c.pos + n := by
  rw [Cursor.remaining] at lacks
  omega

instance (n : Nat) : Truthful (take n) where
  stays h := by obtain ⟨-, -, rfl⟩ := take_keeps h; rfl
  fails h := by
    unfold take at h
    split at h
    · cases h
    · next lacks => cases h; exact Error.trueOf_outOfBounds (past_of_remaining lacks)

instance (n : Nat) : Truthful (ensure n) where
  stays h := by rw [ensure_keeps h]
  fails h := by
    unfold ensure at h
    split at h
    · cases h
    · next lacks => cases h; exact Error.trueOf_outOfBounds (past_of_remaining lacks)

instance (n : Nat) : Truthful (advance n) where
  stays h := by obtain ⟨-, rfl⟩ := advance_keeps h; rfl
  fails h := by
    unfold advance at h
    split at h
    · cases h
    · next lacks => cases h; exact Error.trueOf_outOfBounds (past_of_remaining lacks)

instance (unit : Nat) : Truthful (align unit) where
  stays h := Truthful.stays (r := advance _) h
  fails h := Truthful.fails (r := advance _) h

/- The only access of no bytes: a position behind the end. -/
instance (pos : Nat) : Truthful (seek pos) where
  stays h := by
    unfold seek at h
    split at h <;> cases h
    rfl
  fails h := by
    unfold seek at h
    split at h
    · cases h
    · next lacks => cases h; exact Error.trueOf_outOfBounds (Nat.lt_of_not_le lacks)

instance {r : Reader α} [Truthful r] : Truthful (peek r) where
  stays h := by
    unfold peek at h
    split at h <;> cases h
    rfl
  fails {c _ _} h := by
    unfold peek at h
    cases first : r c with
    | ok v c₁ => rw [first] at h; cases h
    | error e c₁ => rw [first] at h; cases h; exact Truthful.fails first

instance : Truthful u8 := by unfold u8; infer_instance
instance : Truthful u16 := by unfold u16; infer_instance
instance : Truthful u32 := by unfold u32; infer_instance
instance : Truthful u64 := by unfold u64; infer_instance
instance (n : Nat) : Truthful (int n) := by unfold int; infer_instance

theorem truthful_times (r : Reader α) [Truthful r] (n : Nat) : Truthful (times r n) := by
  induction n with
  | zero => exact inferInstanceAs (Truthful (pure [] : Reader (List α)))
  | succ n ih => unfold times; infer_instance

instance {r : Reader α} [Truthful r] {n : Nat} : Truthful (times r n) := truthful_times r n

theorem truthful_collect (r : Reader α) [Truthful r] (fuel : Nat) (seen : Array α) :
    Truthful (collect r fuel seen) := by
  induction fuel generalizing seen with
  | zero => exact inferInstanceAs (Truthful (pure seen : Reader (Array α)))
  | succ fuel ih => unfold collect; infer_instance

instance {r : Reader α} [Truthful r] : Truthful (untilEnd r) :=
  have (fuel : Nat) : Truthful (collect r fuel #[]) := truthful_collect r fuel #[]
  by unfold untilEnd; infer_instance

end Reader

open Reader

/-! ## Headers -/

instance : Truthful StubHeader.read := by unfold StubHeader.read; dsimp only; infer_instance
instance : Truthful readImageSignature := by unfold readImageSignature; infer_instance
instance : Truthful FileHeader.read := by unfold FileHeader.read; infer_instance
instance : Truthful DataDirectory.read := by unfold DataDirectory.read; infer_instance
instance (size : Nat) (claimed : UInt32) : Truthful (OptionalHeader.readDirectories size claimed) := by
  unfold OptionalHeader.readDirectories; dsimp only; infer_instance

set_option synthInstance.maxSize 1000 in
instance (start size : Nat) : Truthful (OptionalHeader.readFields start size) := by
  unfold OptionalHeader.readFields; dsimp only; infer_instance

instance : Truthful Section.read := by unfold Section.read; infer_instance
instance (count : Nat) : Truthful (SectionTable.read count) := by
  unfold SectionTable.read; infer_instance
instance : Truthful CliHeader.read := by unfold CliHeader.read; dsimp only; infer_instance

/-- The version of the root is worked out from bytes that were read. -/
theorem RootHeader.not_outOfBounds_of_versionOf {length : UInt32} {bytes : Bytes} {e : Error}
    (h : versionOf length bytes = .error e) : ¬ e.IsOutOfBounds := by
  unfold versionOf at h
  dsimp only at h
  split at h
  · cases h; exact id
  · split at h
    · cases h; exact id
    · split at h
      · cases h; exact id
      · cases h

instance (length : UInt32) (bytes : Bytes) :
    Truthful (Reader.ofExcept (RootHeader.versionOf length bytes)) :=
  truthful_ofExcept fun _ => RootHeader.not_outOfBounds_of_versionOf

instance : Truthful RootHeader.read := by unfold RootHeader.read; infer_instance

namespace StreamHeader

instance (name : Bytes) (text : String) : Truthful (passName name text) := by
  unfold passName; infer_instance

/-- A window that is cut short ends with the vector, and the whole of it would end behind. -/
theorem past_of_window {data : Bytes} {pos : Nat} (short : (window data pos).size < nameLimit) :
    data.size < pos + nameLimit := by
  rw [window, Array.size_extract] at short
  rw [nameLimit] at short ⊢
  omega

instance : Truthful readName where
  stays {c _ _} h := by
    obtain ⟨-, -, passed⟩ := readName_eq_ok.1 h
    exact Truthful.stays passed
  fails {c _ _} h := by
    unfold readName at h
    rw [bind_of_ok (get_ok _)] at h
    dsimp only at h
    rw [← window] at h
    split at h
    · split at h
      · next short => cases h; exact Error.trueOf_outOfBounds (past_of_window short)
      · cases h; exact Error.trueOf_of_not id
    · cases known : Utf8.decode? (window c.data c.pos).upToNul with
      | none => rw [known] at h; cases h; exact Error.trueOf_of_not id
      | some text =>
        rw [known] at h
        exact Truthful.fails (r := passName (window c.data c.pos).upToNul text) h

instance : Truthful read := by unfold read; infer_instance

end StreamHeader

instance (size : Nat) : Truthful (Root.readStream size) := by unfold Root.readStream; infer_instance
instance (size : Nat) : Truthful (Root.reader size) := by unfold Root.reader; infer_instance

theorem Root.trueOf_of_read {metadata : Bytes} {e : Error} (h : read metadata = .error e) :
    e.TrueOf metadata := by
  rw [read_eq_run] at h
  exact Truthful.runAt h

/-! ## Code and heaps -/

instance : Truthful Compressed.read := by unfold Compressed.read; infer_instance
instance : Truthful UserString.read := by unfold UserString.read; dsimp only; infer_instance

theorem UserStringHeap.trueOf_of_get {h : UserStringHeap} {index : Nat} {e : Error}
    (failed : h.get index = .error e) : e.TrueOf h.data := Truthful.runAt failed

namespace Instruction

instance : Truthful Opcode.read := by
  unfold Opcode.read
  refine Truthful.bind inferInstance fun offset => Truthful.bind inferInstance fun first => ?_
  split
  · refine Truthful.bind inferInstance fun second => ?_
    cases Opcode.escaped? second <;> infer_instance
  · cases Opcode.plain? first <;> infer_instance

instance (kind : OperandKind) : Truthful (Operand.read kind) := by
  cases kind <;> unfold Operand.read <;> infer_instance

instance : Truthful read := by unfold read; infer_instance
instance : Truthful readAll := by unfold readAll; infer_instance

end Instruction

theorem StringSite.trueOf_of_findAll {code : Bytes} {e : Error} (h : findAll code = .error e) :
    e.TrueOf code := by
  rw [findAll_eq_map_readAll] at h
  cases read : Instruction.readAll.run code with
  | ok list => rw [read] at h; cases h
  | error e' => rw [read] at h; cases h; exact Truthful.runAt read

namespace MethodBody

instance (first : UInt8) : Truthful (readFat first) := by unfold readFat; dsimp only; infer_instance
instance : Truthful readHeader := by unfold readHeader; infer_instance

theorem trueOf_of_read {data : Bytes} {offset : Nat} {e : Error} (h : read data offset = .error e) :
    e.TrueOf data := by
  rcases Except.bind_eq_error.1 h with failed | ⟨body, -, h⟩
  · exact Truthful.runAt failed
  · split at h
    · next past => cases h; exact Error.trueOf_outOfBounds past
    · cases h

end MethodBody

/-! ## The stream of tables -/

theorem TablesHeader.truthful_readCounts (numbers : List Nat) : Truthful (readCounts numbers) := by
  induction numbers with
  | nil => unfold readCounts; infer_instance
  | cons number later ih =>
    unfold readCounts
    cases TableId.ofNat? number <;> infer_instance

instance (numbers : List Nat) : Truthful (TablesHeader.readCounts numbers) :=
  TablesHeader.truthful_readCounts numbers

instance : Truthful TablesHeader.read := by unfold TablesHeader.read; infer_instance

namespace Reader

variable {α β : Type}

/-- Where the next `n` bytes are there, only a check can fail. -/
class Served (r : Reader α) (n : outParam Nat) : Prop where
  fails : ∀ {c c' : Cursor} {e : Error}, c.pos + n ≤ c.data.size → r c = .error e c' →
    ¬ e.IsOutOfBounds

theorem Served.of_eq {r : Reader α} {m n : Nat} [Served r m] (h : m = n) : Served r n :=
  h ▸ inferInstance

instance {r : Reader α} {n : Nat} [Total r n] : Served r n where
  fails fits h := by
    obtain ⟨v, ok⟩ := Total.succeeds (r := r) _ fits
    rw [ok] at h
    cases h

instance {r : Reader α} {f : α → Reader β} {m n : Nat} [Window r m] [Served r m]
    [∀ a, Served (f a) n] : Served (r >>= f) (m + n) where
  fails fits h := by
    rcases bind_eq_error.1 h with failed | ⟨a, c₁, first, failed⟩
    · exact Served.fails (by omega) failed
    · have moved := Window.moves first
      subst moved
      exact Served.fails (by simp only; omega) failed

end Reader

instance (kind : CodedKind) (value : UInt32) : Served (Reader.ofExcept (CodedIndex.decode kind value)) 0 where
  fails _ h := by
    unfold CodedIndex.decode at h
    dsimp only at h
    cases target : kind.target? (value.toNat % kind.tags) with
    | none => rw [target] at h; cases h; exact id
    | some table => rw [target] at h; cases h

instance {s : Schema} {kind : CodedKind} : Served (CodedIndex.read s kind) (s.coded kind) := by
  unfold CodedIndex.read
  exact Served.of_eq rfl

/-- Where the bytes of a row are there, only a check of its columns can fail. -/
class ServedColumns (γ : Type) [Columns γ] : Prop where
  served : ∀ s, Served (Columns.read s : Reader γ) (s.rowSize (Columns.table γ))

attribute [instance] ServedColumns.served

instance {γ : Type} [Columns γ] [TotalColumns γ] : ServedColumns γ where
  served _ := inferInstance

instance : ServedColumns TypeDefColumns where
  served s := by
    simp only [Columns.read, Columns.table, Schema.rowSize]
    exact Served.of_eq (by simp only [Schema.strings, Schema.index]; omega)

namespace Table

variable {γ : Type} [Columns γ] [LawfulColumns γ] [ServedColumns γ] {s : Schema} {e : Error}

theorem not_outOfBounds_of_readRows {n : Nat} {seen : Array (Row γ)} {c c' : Cursor}
    (fits : c.pos + n * s.rowSize (Columns.table γ) ≤ c.data.size)
    (h : readRows s n seen c = .error e c') : ¬ e.IsOutOfBounds := by
  induction n generalizing seen c with
  | zero => cases h
  | succ n ih =>
    rw [Nat.succ_mul] at fits
    rcases bind_eq_error.1 h with failed | ⟨row, c₁, one, later⟩
    · rw [Row.read, bind_of_ok (position_ok c)] at failed
      rcases bind_eq_error.1 failed with failed | ⟨_, _, -, ⟨⟩⟩
      exact Served.fails (by omega) failed
    · obtain ⟨columns, read, rfl⟩ := map_eq_ok.1 one
      have moved := Window.moves read
      subst moved
      exact ih (by simp only; omega) later

/-- A table that ends within the stream is read without an access behind the end. -/
theorem not_outOfBounds_of_readTable {stream : Bytes} {places : List Placement}
    (fits : ∀ p ∈ places, p.offset + p.rowCount * s.rowSize p.table ≤ stream.size)
    (h : Tables.readTable γ stream s places = .error e) : ¬ e.IsOutOfBounds := by
  unfold Tables.readTable at h
  split at h
  · next p found =>
    have own : p.table = Columns.table γ := by simpa using List.find?_some found
    have whole := fits p (List.mem_of_find?_eq_some found)
    rw [own] at whole
    obtain ⟨c', h⟩ := runAt_eq_error.1 h
    rcases bind_eq_error.1 h with failed | ⟨_, _, -, ⟨⟩⟩
    refine not_outOfBounds_of_readRows ?_ failed
    show 0 + _ ≤ (stream.extract p.offset stream.size).size
    rw [Array.size_extract, Nat.min_self]
    omega
  · cases h

end Table

namespace Tables

theorem fault_of_layOut {s : Schema} {size offset : Nat} {present : List (TableId × UInt32)}
    {e : Error} (h : (Placement.layOut s size offset present).fault = some e) :
    ¬ e.IsOutOfBounds := by
  induction present generalizing offset with
  | nil => cases h
  | cons entry rest ih =>
    unfold Placement.layOut at h
    dsimp only at h
    split at h
    · exact ih h
    · cases h; exact id

/-- Reading the stream of tables goes behind its end in the header only. -/
theorem trueOf_of_read {stream : Bytes} {e : Error} (h : read stream = .error e) :
    e.TrueOf stream := by
  rcases Except.bind_eq_error.1 h with failed | ⟨parsed, header, h⟩
  · unfold parse at failed
    split at failed
    · cases failed
    · next failed' => cases failed; exact Truthful.fails failed'
  have sound := sound_of_parse header
  rw [parse_of_sound sound] at header
  cases header
  refine Error.trueOf_of_not ?_
  rcases Except.bind_eq_error.1 h with failed | ⟨placements, placed, h⟩
  · exact fault_of_layOut (Progress.toExcept_eq_error.1 failed)
  obtain ⟨rfl, fits⟩ := Placement.layOut_eq_ok.1 placed
  have fits : ∀ p ∈ (TablesHeader.stored stream).places,
      p.offset + p.rowCount * (TablesHeader.stored stream).schema.rowSize p.table ≤ stream.size :=
    fun p mem => (TablesHeader.mem_places mem).2.2 ▸ fits p mem
  rcases Except.bind_eq_error.1 h with failed | ⟨_, -, h⟩
  · exact Table.not_outOfBounds_of_readTable fits failed
  rcases Except.bind_eq_error.1 h with failed | ⟨_, -, h⟩
  · exact Table.not_outOfBounds_of_readTable fits failed
  rcases Except.bind_eq_error.1 h with failed | ⟨_, -, h⟩
  · exact Table.not_outOfBounds_of_readTable fits failed
  rcases Except.bind_eq_error.1 h with failed | ⟨_, -, h⟩
  · exact Table.not_outOfBounds_of_readTable fits failed
  rcases Except.bind_eq_error.1 h with failed | ⟨_, -, ⟨⟩⟩
  exact Table.not_outOfBounds_of_readTable fits failed

end Tables

/-! ## Files and images -/

/-- The byte of an address that lies behind the end would be one past it. -/
theorem File.trueOf_of_fileOffset {f : File} {rva : UInt32} {e : Error}
    (h : f.fileOffset rva = .error e) : e.TrueOf f.data := by
  rcases Except.bind_eq_error.1 h with failed | ⟨offset, -, h⟩
  · rw [SectionTable.fileOffset_eq_error failed]
    exact Error.trueOf_of_not id
  · split at h
    · cases h
    · next past => cases h; exact Error.trueOf_outOfBounds (by omega)

theorem File.trueOf_of_sliceAt {f : File} {rva : UInt32} {length : Nat} {e : Error}
    (h : f.sliceAt rva length = .error e) : e.TrueOf f.data := by
  rcases Except.bind_eq_error.1 h with failed | ⟨offset, -, failed⟩
  · exact trueOf_of_fileOffset failed
  · exact Bytes.trueOf_of_slice failed

/-- A stream that is not placed has no address, or the file lacks its first byte. -/
theorem Root.trueOf_of_place {f : File} {root : Root} {rva : UInt32} {e : Error}
    (h : (root.place rva f.fileOffset).toExcept = .error e) : e.TrueOf f.data := by
  rw [place, Progress.toExcept_traverse] at h
  obtain ⟨header, -, failed⟩ := Except.mapM_eq_error h
  unfold Stream.place at failed
  split at failed
  · rcases Except.bind_eq_error.1 failed with failed | ⟨_, -, ⟨⟩⟩
    exact File.trueOf_of_fileOffset failed
  · cases failed
    exact Error.trueOf_of_not id

namespace Image

variable {data : Bytes} {streams : List Stream} {e : Error}

theorem trueOf_of_tablesBytes {f : File} (h : tablesBytes f streams = .error e) :
    e.TrueOf f.data := by
  rcases Except.bind_eq_error.1 h with failed | ⟨stream, -, failed⟩
  · unfold tablesStream at failed
    split at failed <;> cases failed <;> exact Error.trueOf_of_not id
  · exact Bytes.trueOf_of_slice failed

theorem trueOf_of_openHeap {α : Type} {name : String} {make : Bytes → Except Error α}
    (checks : ∀ bytes, make bytes = .error e → ¬ e.IsOutOfBounds)
    (h : discard (openHeap data streams name make) = .error e) : e.TrueOf data := by
  rcases Except.bind_eq_error.1 (Except.map_eq_error.1 h) with failed | ⟨bytes?, -, failed⟩
  · unfold streamBytes at failed
    split at failed
    · exact Bytes.trueOf_of_slice (Except.map_eq_error.1 failed)
    · cases failed
  · cases bytes? with
    | none => cases failed
    | some bytes => exact Error.trueOf_of_not (checks bytes (Except.map_eq_error.1 failed))

theorem trueOf_of_checkHeaps (h : checkHeaps data streams = .error e) : e.TrueOf data := by
  rcases Except.bind_eq_error.1 h with failed | ⟨_, -, h⟩
  · exact trueOf_of_openHeap (fun _ => Error.not_isOutOfBounds_of_check) failed
  rcases Except.bind_eq_error.1 h with failed | ⟨_, -, h⟩
  · exact trueOf_of_openHeap (fun _ => Error.not_isOutOfBounds_of_check) failed
  rcases Except.bind_eq_error.1 h with failed | ⟨_, -, h⟩
  · exact trueOf_of_openHeap (fun _ => Error.not_isOutOfBounds_of_check) failed
  · exact trueOf_of_openHeap (fun _ => Error.not_isOutOfBounds_of_check) h

end Image

end ManagedImage
