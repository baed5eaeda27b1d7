/-
Which bytes the headers of an image are read from. Each header is read from the
bytes that its reader passes over, so a file with the same bytes there has the
same header: the headers of the file (`Headers.read_congr`), the metadata root
with its list of streams (`Root.read_congr`) and the headers of method bodies,
failures included (`MethodBody.read_congr`).
-/
import ManagedImage.Metadata.Root
import ManagedImage.Method.Body
import ManagedImage.Pe.File
import ManagedImage.Proofs.Readers

namespace ManagedImage

open Reader

theorem Progress.toExcept_eq_ok {ε α : Type} {p : Progress ε α} {l : List α} :
    p.toExcept = .ok l ↔ p.fault = none ∧ p.done = l := by
  unfold toExcept
  cases p.fault with
  | none => simp
  | some e => simp

theorem Progress.toExcept_eq_error {ε α : Type} {p : Progress ε α} {e : ε} :
    p.toExcept = .error e ↔ p.fault = some e := by
  unfold toExcept
  cases p.fault <;> simp

/-- Where a reader stops, also if it fails. -/
def Reader.stop {α : Type} (r : Reader α) (data : Bytes) (pos : Nat) : Nat :=
  match r ⟨data, pos⟩ with
  | .ok _ c => c.pos
  | .error _ c => c.pos

theorem Reader.stop_of_ok {α : Type} {r : Reader α} {data : Bytes} {pos : Nat} {v : α} {c : Cursor}
    (h : r ⟨data, pos⟩ = .ok v c) : r.stop data pos = c.pos := by rw [Reader.stop, h]

/-! ## The headers of the file -/

instance : Local StubHeader.read := by unfold StubHeader.read; dsimp only; infer_instance
instance : Takes StubHeader.read StubHeader.size := by
  unfold StubHeader.read; dsimp only; exact Takes.of_eq rfl
instance : Local readImageSignature := by unfold readImageSignature; infer_instance
instance : Local FileHeader.read := by unfold FileHeader.read; infer_instance
instance (size : Nat) : Local (OptionalHeader.read size) := by
  unfold OptionalHeader.read; infer_instance
instance : Local Section.read := by unfold Section.read; infer_instance
instance (count : Nat) : Local (SectionTable.read count) := by
  unfold SectionTable.read; infer_instance

instance : Within StubHeader.read := by unfold StubHeader.read; dsimp only; infer_instance
instance : Within readImageSignature := by unfold readImageSignature; infer_instance
instance : Within FileHeader.read := by unfold FileHeader.read; infer_instance
instance (size : Nat) : Within (OptionalHeader.read size) := by
  unfold OptionalHeader.read; infer_instance
instance : Within Section.read := by unfold Section.read; infer_instance
instance (count : Nat) : Within (SectionTable.read count) := by
  unfold SectionTable.read; infer_instance

instance : Takes readImageSignature 4 := by unfold readImageSignature; exact Takes.of_eq rfl
instance : Takes FileHeader.read 20 := by unfold FileHeader.read; exact Takes.of_eq rfl
instance (size : Nat) : Takes (OptionalHeader.read size) size := by
  unfold OptionalHeader.read; exact Takes.of_eq (by omega)
instance : Takes Section.read Section.size := by unfold Section.read; exact Takes.of_eq rfl
instance (count : Nat) : Takes (SectionTable.read count) (count * Section.size) := by
  unfold SectionTable.read; exact Takes.of_eq (by omega)

namespace Headers

/-- The headers behind the stub header, from the signature to the end of the section table. -/
def span (h : Headers) : Span :=
  ⟨h.stub.imageOffset.toNat, h.stub.imageOffset.toNat + 4 + 20 + h.file.optionalHeaderSize.toNat +
    h.file.sectionCount.toNat * Section.size⟩

/-- What is read from the signature on. -/
def readImage (stub : StubHeader) : Reader Headers := do
  readImageSignature
  let file ← FileHeader.read
  let optional ← OptionalHeader.read file.optionalHeaderSize.toNat
  let sections ← SectionTable.read file.sectionCount.toNat
  return { stub, file, optional, sections }

theorem readImage_eq_ok {stub : StubHeader} {h : Headers} {c c' : Cursor}
    (read : readImage stub c = .ok h c') :
    h.stub = stub ∧ c'.pos =
      c.pos + 4 + 20 + h.file.optionalHeaderSize.toNat + h.file.sectionCount.toNat * Section.size := by
  obtain ⟨_, c₁, signature, read⟩ := bind_eq_ok.1 read
  obtain ⟨file, c₂, fields, read⟩ := bind_eq_ok.1 read
  obtain ⟨optional, c₃, directories, read⟩ := bind_eq_ok.1 read
  obtain ⟨sections, c₄, table, read⟩ := bind_eq_ok.1 read
  obtain ⟨rfl, rfl⟩ := pure_eq_ok.1 read
  refine ⟨rfl, ?_⟩
  rw [Takes.moves table, Takes.moves directories, Takes.moves fields, Takes.moves signature]

/-- The headers depend on the stub header and on the bytes from the signature to their end. -/
theorem read_congr {a b : Bytes} {h : Headers} (read : Headers.read.run a = .ok h)
    (size : a.size = b.size) (front : a.Agree b 0 StubHeader.size)
    (back : a.Agree b h.span.start h.span.stop) : Headers.read.run b = .ok h := by
  obtain ⟨c', read⟩ := run_eq_ok.1 read
  obtain ⟨stub, c₀, first, read⟩ := bind_eq_ok.1 read
  obtain ⟨pos, rfl⟩ : ∃ pos, c₀ = ⟨a, pos⟩ := ⟨_, Local.stays first⟩
  obtain ⟨_, c₁, there, read⟩ := bind_eq_ok.1 read
  have moved : pos = 0 + StubHeader.size := Takes.moves first
  have inside : stub.imageOffset.toNat ≤ a.size := by
    rw [Reader.seek] at there
    split at there
    · assumption
    · cases there
  rw [Reader.seek, if_pos inside] at there
  cases there
  obtain ⟨rfl, stop⟩ := readImage_eq_ok read
  have first' := Local.carries first (Nat.le_of_eq size) (by rw [moved, Nat.zero_add]; exact front)
  have there' : Reader.seek h.stub.imageOffset.toNat ⟨b, pos⟩ =
      .ok () ⟨b, h.stub.imageOffset.toNat⟩ := by rw [Reader.seek, if_pos (size ▸ inside)]
  have read' := Local.carries read (Nat.le_of_eq size) (by rw [stop]; exact back)
  exact run_eq_ok.2 ⟨_, bind_eq_ok.2 ⟨_, _, first', bind_eq_ok.2 ⟨_, _, there', read'⟩⟩⟩

end Headers

/-! ## The metadata root -/

instance : Local RootHeader.read := by unfold RootHeader.read; infer_instance

namespace StreamHeader

theorem takeWhile_congr {α : Type} {p : α → Bool} {l l' : List α}
    (stops : (l.takeWhile p).length < l.length)
    (same : ∀ k, k ≤ (l.takeWhile p).length → l[k]? = l'[k]?) : l'.takeWhile p = l.takeWhile p := by
  induction l generalizing l' with
  | nil => cases stops
  | cons x l ih =>
    obtain ⟨l₁, rfl⟩ : ∃ l₁, l' = x :: l₁ := by
      have first := same 0 (Nat.zero_le _)
      cases l' with
      | nil => cases first
      | cons y l₁ => cases first; exact ⟨l₁, rfl⟩
    rw [List.takeWhile_cons] at stops same ⊢
    rw [List.takeWhile_cons]
    split
    case isTrue holds =>
      rw [if_pos holds] at stops same
      rw [ih (Nat.lt_of_succ_lt_succ stops) fun k le => same (k + 1) (Nat.succ_le_succ le)]
    case isFalse => rfl

/-- The bytes that a name at a position must end in. -/
def window (data : Bytes) (pos : Nat) : Bytes := data.extract pos (min (pos + nameLimit) data.size)

/-- What is read once the text of a name is known. -/
def passName (name : Bytes) (text : String) : Reader String := do
  Reader.advance (name.size + 1)
  Reader.align 4
  return text

instance (name : Bytes) (text : String) : Local (passName name text) := by
  unfold passName; infer_instance

theorem passName_eq_ok {name : Bytes} {text text' : String} {c c' : Cursor}
    (h : passName name text c = .ok text' c') : text = text' := by
  obtain ⟨_, c₁, -, h⟩ := bind_eq_ok.1 h
  obtain ⟨_, c₂, -, h⟩ := bind_eq_ok.1 h
  exact (pure_eq_ok.1 h).1

theorem passName_keeps {name : Bytes} {text text' : String} {c c' : Cursor}
    (h : passName name text c = .ok text' c') : c.pos + name.size + 1 ≤ c'.pos := by
  obtain ⟨_, c₁, moved, h⟩ := bind_eq_ok.1 h
  obtain ⟨_, c₂, aligned, h⟩ := bind_eq_ok.1 h
  obtain ⟨-, rfl⟩ := pure_eq_ok.1 h
  have behind := Takes.moves moved
  have further := (align_keeps aligned).2
  omega

theorem readName_eq_ok {data : Bytes} {pos : Nat} {text : String} {c' : Cursor} :
    readName ⟨data, pos⟩ = .ok text c' ↔
      (window data pos).upToNul.size ≠ (window data pos).size ∧
        Utf8.decode? (window data pos).upToNul = some text ∧
        passName (window data pos).upToNul text ⟨data, pos⟩ = .ok text c' := by
  unfold readName
  rw [bind_of_ok (get_ok _)]
  dsimp only
  rw [← window]
  by_cases ends : (window data pos).upToNul.size = (window data pos).size
  · rw [if_pos ends]
    constructor
    · intro h
      split at h <;> cases h
    · intro h
      exact absurd ends h.1
  · rw [if_neg ends]
    cases Utf8.decode? (window data pos).upToNul with
    | none =>
      constructor
      · intro h; cases h
      · rintro ⟨-, ⟨⟩, -⟩
    | some known =>
      constructor
      · intro h
        have same := passName_eq_ok h
        subst same
        exact ⟨ends, rfl, h⟩
      · rintro ⟨-, same, h⟩
        cases same
        exact h

/-- The bytes of a name, and whether it ends, depend on it and the zero byte behind it. -/
theorem upToNul_congr {a b : Bytes} {pos : Nat}
    (ends : (window a pos).upToNul.size ≠ (window a pos).size) (size : a.size ≤ b.size)
    (agree : a.Agree b pos (pos + (window a pos).upToNul.size + 1)) :
    (window b pos).upToNul = (window a pos).upToNul ∧
      (window b pos).upToNul.size ≠ (window b pos).size := by
  have length : (window a pos).upToNul.size =
      ((window a pos).toList.takeWhile (· ≠ 0)).length := by
    rw [← Bytes.toList_upToNul, Array.length_toList]
  have shorter : (window a pos).upToNul.size < (window a pos).size :=
    Nat.lt_of_le_of_ne (Bytes.size_upToNul_le _) ends
  have sizes : (window a pos).size ≤ (window b pos).size := by
    simp only [window, Array.size_extract]; omega
  have same : ∀ k, k ≤ (window a pos).upToNul.size →
      (window a pos).toList[k]? = (window b pos).toList[k]? := by
    intro k le
    have inside : k < (window a pos).size := by omega
    rw [Array.getElem?_toList, Array.getElem?_toList,
      Bytes.getElem?_of_extract (show window a pos = _ from rfl) inside,
      Bytes.getElem?_of_extract (show window b pos = _ from rfl) (by omega)]
    exact agree _ (by omega) (by omega)
  have whole : (window b pos).upToNul = (window a pos).upToNul := by
    apply Array.toList_inj.1
    rw [Bytes.toList_upToNul, Bytes.toList_upToNul]
    refine takeWhile_congr ?_ fun k le => same k (length ▸ le)
    rw [← length, Array.length_toList]
    exact shorter
  refine ⟨whole, ?_⟩
  rw [whole]
  omega

instance : Local readName where
  keeps h := by
    obtain ⟨-, -, passed⟩ := readName_eq_ok.1 h
    exact Local.keeps passed
  carries h size agree := by
    obtain ⟨ends, decoded, passed⟩ := readName_eq_ok.1 h
    have reach := passName_keeps passed
    obtain ⟨same, ends'⟩ := upToNul_congr ends size (agree.mono (Nat.le_refl _) reach)
    refine readName_eq_ok.2 ⟨ends', same ▸ decoded, ?_⟩
    rw [same]
    exact Local.carries passed size agree

instance : Local read := by unfold read; infer_instance

instance (name : Bytes) (text : String) : Within (passName name text) := by
  unfold passName; infer_instance

instance : Within readName where
  inside h within := by
    obtain ⟨-, -, passed⟩ := readName_eq_ok.1 h
    exact Within.inside passed within

instance : Within read := by unfold read; infer_instance

end StreamHeader

namespace Root

instance (size : Nat) : Local (readStream size) := by unfold readStream; infer_instance
instance (size : Nat) : Within (readStream size) := by unfold readStream; infer_instance

/-- The root as one reader: its header and its list of streams, in metadata of `size` bytes. -/
def reader (size : Nat) : Reader Root := do
  let header ← RootHeader.read
  let streams ← Reader.times (readStream size) header.streamCount.toNat
  return ⟨header, streams⟩

instance (size : Nat) : Local (reader size) := by unfold reader; infer_instance

/-- The position behind the list of streams. -/
def extent (metadata : Bytes) : Nat := (reader metadata.size).stop metadata 0

/-- Reading entries up to a bad one, and forgetting those in front of it. -/
theorem toExcept_readStreams (size n : Nat) (c : Cursor) :
    (readStreams size n c).toExcept = (Reader.times (readStream size) n).runAt c.data c.pos := by
  induction n generalizing c with
  | zero => rfl
  | succ n ih =>
    unfold Reader.runAt
    rw [readStreams, Reader.times]
    cases first : readStream size c with
    | error e c₁ => rw [bind_of_error first]; rfl
    | ok h c₁ =>
      have later := ih c₁
      unfold Reader.runAt at later
      rw [bind_of_ok first]
      cases rest : Reader.times (readStream size) n c₁ with
      | error e c₂ =>
        rw [rest] at later
        rw [bind_of_error rest]
        unfold Progress.toExcept at later ⊢
        cases fault : (readStreams size n c₁).fault <;> simp_all
      | ok hs c₂ =>
        rw [rest] at later
        obtain ⟨sound, done⟩ := Progress.toExcept_eq_ok.1 later
        rw [bind_of_ok rest]
        exact Progress.toExcept_eq_ok.2 ⟨sound, congrArg (h :: ·) done⟩

/-- The root is read by one reader. -/
theorem read_eq_run (metadata : Bytes) : read metadata = (reader metadata.size).run metadata := by
  unfold read parse Reader.run Reader.runAt reader
  cases header : RootHeader.read ⟨metadata, 0⟩ with
  | error e c =>
    rw [bind_of_error header, show RootHeader.read (.start metadata) = _ from header]
    rfl
  | ok h c =>
    rw [bind_of_ok header, show RootHeader.read (.start metadata) = _ from header]
    show (readStreams metadata.size h.streamCount.toNat c).toExcept >>= _ = _
    rw [toExcept_readStreams]
    unfold Reader.runAt
    cases rest : Reader.times (readStream metadata.size) h.streamCount.toNat c with
    | error e c₂ => rw [bind_of_error rest]; rfl
    | ok hs c₂ => rw [bind_of_ok rest]; rfl

theorem read_eq_ok {metadata : Bytes} {r : Root} :
    read metadata = .ok r ↔ ∃ c', reader metadata.size ⟨metadata, 0⟩ = .ok r c' := by
  rw [read_eq_run]
  exact run_eq_ok

/-- The root depends on the size of the metadata and on the bytes up to the end of the list. -/
theorem read_congr {a b : Bytes} {r : Root} (found : read a = .ok r) (size : a.size = b.size)
    (agree : a.Agree b 0 (extent a)) : read b = .ok r := by
  obtain ⟨c', found⟩ := read_eq_ok.1 found
  rw [extent, Reader.stop_of_ok found] at agree
  exact read_eq_ok.2 ⟨_, size ▸ Local.carries found (Nat.le_of_eq size) agree⟩

end Root

/-! ## Headers of method bodies -/

namespace MethodBody

/--
How many bytes the reading of a header examines: the first byte, which tells the
format, and of the fat one all fields, or two bytes if the size in them is bad.
-/
def examined (data : Bytes) (offset : Nat) : Nat :=
  if data.getD offset 0 % 4 = 3 then
    if data.leNat offset 2 / 0x1000 * 4 < fatSize then 2 else fatSize
  else 1

theorem examined_pos (data : Bytes) (offset : Nat) : 0 < examined data offset := by
  unfold examined
  repeat' split
  all_goals decide

/-- What is read of a fat header behind its first two bytes. -/
def readFatRest (offset : Nat) (first : UInt8) (flagsAndSize : UInt16) : Reader MethodBody := do
  let headerSize := flagsAndSize.toNat / 0x1000 * 4
  if headerSize < fatSize then throw (.methodHeader offset first)
  let maxStack ← Reader.u16
  let codeSize ← Reader.u32
  let localsToken ← Reader.u32
  return { offset, codeSize := codeSize.toNat, headerSize, maxStack := maxStack.toNat,
           localsToken, flags := flagsAndSize.toNat % 0x1000 &&& knownFlags, isFat := true }

theorem reads_fatRest (offset : Nat) (first : UInt8) (flagsAndSize : UInt16) :
    Reads (readFatRest offset first flagsAndSize)
      (if flagsAndSize.toNat / 0x1000 * 4 < fatSize then 0 else fatSize - 2) := by
  unfold readFatRest
  dsimp only
  split
  · exact fun _ _ _ _ _ => rfl
  · exact reads_u16.bind fun _ => reads_u32.bind fun _ => reads_u32.bind fun _ => reads_pure _ 0

theorem readFat_congr {a b : Bytes} {offset : Nat} (first : UInt8) (size : a.size = b.size)
    (agree : a.Agree b offset
      (offset + if a.leNat offset 2 / 0x1000 * 4 < fatSize then 2 else fatSize)) :
    (readFat first).runAt a offset = (readFat first).runAt b offset := by
  have steps : ∀ data, outcome (readFat first) data offset =
      (outcome u16 data offset).bind fun (flagsAndSize, stop) =>
        outcome (readFatRest offset first flagsAndSize) data stop := by
    intro data
    unfold readFat
    rw [outcome_bind]
    exact outcome_bind u16 (readFatRest offset first) data offset
  have two : a.Agree b offset (offset + 2) := by
    refine agree.mono (Nat.le_refl _) (Nat.add_le_add_left ?_ _)
    split <;> decide
  rw [runAt_eq_outcome, runAt_eq_outcome, steps, steps, ← reads_u16 size two]
  cases word : u16 ⟨a, offset⟩ with
  | error e c => rw [outcome_of_error word]; rfl
  | ok flagsAndSize c =>
    obtain ⟨value, c₁, field, answer⟩ := bind_eq_ok.1 word
    obtain ⟨-, rfl, rfl⟩ := nat_keeps field
    obtain ⟨rfl, rfl⟩ := pure_eq_ok.1 answer
    rw [outcome_of_ok word]
    refine congrArg (Except.map Prod.fst) (reads_fatRest offset first _ size ?_)
    have bound := a.leNat_lt offset 2
    have same : (UInt16.ofNat (a.leNat offset 2)).toNat = a.leNat offset 2 :=
      UInt16.toNat_ofNat_of_lt bound
    rw [same]
    refine agree.mono (Nat.le_add_right ..) ?_
    split <;> simp only [fatSize] <;> omega

theorem peek_u8_of_fits {c : Cursor} (fits : c.pos < c.data.size) :
    peek u8 c = .ok (c.data.getD c.pos 0) c := by rw [peek, u8_of_fits fits]

theorem peek_u8_of_lacks {c : Cursor} (lacks : ¬ c.pos < c.data.size) :
    peek u8 c = .error (.outOfBounds c.pos 1 c.data.size) c := by rw [peek, u8_of_lacks lacks]

/-- Reading a header depends on the bytes that it examines. -/
theorem readHeader_congr {a b : Bytes} {offset : Nat} (size : a.size = b.size)
    (agree : a.Agree b offset (offset + examined a offset)) :
    readHeader.runAt a offset = readHeader.runAt b offset := by
  have positive := examined_pos a offset
  have first : a.getD offset 0 = b.getD offset 0 := agree.getD (Nat.le_refl _) (by omega)
  unfold examined at agree
  unfold readHeader runAt
  rw [bind_of_ok (position_ok _), bind_of_ok (position_ok _)]
  by_cases inside : offset < a.size
  · rw [bind_of_ok (peek_u8_of_fits (c := ⟨a, offset⟩) inside),
      bind_of_ok (peek_u8_of_fits (c := ⟨b, offset⟩) (size ▸ inside))]
    dsimp only
    rw [← first]
    generalize a.getD offset 0 = lead at agree ⊢
    by_cases tiny : lead % 4 = 2
    · rw [if_pos tiny]; rfl
    · rw [if_neg tiny]
      by_cases fat : lead % 4 = 3
      · rw [if_pos fat] at agree ⊢
        exact readFat_congr lead size agree
      · rw [if_neg fat]; rfl
  · rw [bind_of_error (peek_u8_of_lacks (c := ⟨a, offset⟩) inside),
      bind_of_error (peek_u8_of_lacks (c := ⟨b, offset⟩) (size ▸ inside)), size]

/-- Reading a body depends on the bytes that its header is read from, and on no byte of the code. -/
theorem read_congr {a b : Bytes} {offset : Nat} (size : a.size = b.size)
    (agree : a.Agree b offset (offset + examined a offset)) : read a offset = read b offset := by
  unfold read
  rw [readHeader_congr size agree, size]

end MethodBody

end ManagedImage
