/-
The form of the metadata root. Its entries are of every length: the version takes the
bytes set aside for it, a name takes as many as it has, and both are filled up to whole
words from the start of the root (`wordEnd`). An entry that begins at a whole word
therefore ends at one, and this is what a list of entries keeps from one to the next
(`StreamHeader.runAt_times_readStream_eq_ok`).

Two conditions decide whether a root is read. It must be well formed (`Root.WellFormed`),
which does not depend on where it stands but for the size of the metadata, and it must
stand at the start of the metadata (`Root.StandsIn`). The bytes that fill up a name or the
bytes of the version are not looked at; those within the bytes of the version must be zero.

Main statement: `Root.read_iff_stands`, with both directions for every root.
-/
import ManagedImage.Proofs.FixedLayouts
import ManagedImage.Proofs.HeaderReads
import ManagedImage.Proofs.WrittenForms

namespace ManagedImage

open Reader

/-- The bytes decode to a text exactly if they are its bytes. -/
theorem Utf8.decode?_eq_some {data : Bytes} {text : String} :
    decode? data = some text ↔ data = (encode text).toArray := by
  have bytes : (encode text).toArray = text.toByteArray.data := Array.toArray_toList
  rw [bytes, decode?, String.fromUTF8?]
  split
  · next valid =>
    rw [Option.some.injEq, ← String.toByteArray_inj]
    constructor
    · intro same
      exact congrArg ByteArray.data same
    · intro same
      exact ByteArray.ext same
  · next broken =>
    constructor
    · exact nofun
    · rintro rfl
      exact absurd text.isValidUTF8 broken

/-! ## Whole words -/

/-- The next multiple of four at or above a position. -/
def wordEnd (n : Nat) : Nat := (n + 3) / 4 * 4

theorem le_wordEnd (n : Nat) : n ≤ wordEnd n := by
  unfold wordEnd
  omega

theorem wordEnd_mod (n : Nat) : wordEnd n % 4 = 0 := Nat.mul_mod_left ..

/-- What fills a length up to whole words also fills up a position behind whole words. -/
theorem wordEnd_add {start : Nat} (aligned : start % 4 = 0) (n : Nat) :
    wordEnd (start + n) = start + wordEnd n := by
  unfold wordEnd
  omega

/-- Alignment goes to the end of the word, which must not lie behind the end of the vector. -/
theorem Reader.align_eq_ok {data : Bytes} {pos : Nat} {v : Unit} {c' : Cursor}
    (inside : pos ≤ data.size) :
    align 4 ⟨data, pos⟩ = .ok v c' ↔ wordEnd pos ≤ data.size ∧ c' = ⟨data, wordEnd pos⟩ := by
  have stop : pos + (4 - pos % 4) % 4 = wordEnd pos := by
    unfold wordEnd
    omega
  rw [align, FixedLayout.eq_ok inside, stop]
  exact and_congr_right fun _ => and_iff_right rfl

/-! ## Text up to a zero byte -/

/-- The front of a list up to its first zero byte, which must be there. -/
theorem List.takeWhile_eq_iff_begins {l text : List UInt8} :
    (l.takeWhile (· ≠ 0) = text ∧ text.length ≠ l.length) ↔ 0 ∉ text ∧ text ++ [0] <+: l := by
  constructor
  · rintro ⟨rfl, shorter⟩
    refine ⟨fun zero => by simpa using List.all_eq_true.1 List.all_takeWhile _ zero, ?_⟩
    have split := List.takeWhile_append_dropWhile (p := (· ≠ 0)) (l := l)
    cases behind : l.dropWhile (· ≠ 0) with
    | nil =>
      rw [behind, List.append_nil] at split
      exact absurd (congrArg List.length split) shorter
    | cons byte rest =>
      have stop := List.head_dropWhile_not (· ≠ 0) (l := l) (by rw [behind]; exact nofun)
      simp only [behind, List.head_cons] at stop
      obtain rfl : byte = 0 := Decidable.not_not.1 (of_decide_eq_false stop)
      rw [behind] at split
      exact ⟨rest, by rw [List.append_assoc]; exact split⟩
  · rintro ⟨free, rest, rfl⟩
    have all : ∀ byte ∈ text, decide (byte ≠ 0) = true :=
      fun byte mem => decide_eq_true fun zero => free (zero ▸ mem)
    rw [List.append_assoc, List.takeWhile_append_of_pos all]
    exact ⟨List.append_nil text, by simp⟩

namespace Bytes

theorem at_zero_iff_begins {data : Bytes} {l : List UInt8} : data.At l 0 ↔ l <+: data.toList := by
  rw [List.prefix_iff_getElem?]
  refine forall_congr' fun i => forall_congr' fun less => ?_
  rw [Nat.zero_add, @Array.getElem?_toList _ data, List.getElem?_eq_getElem less]

theorem at_extract_iff {data : Bytes} {l : List UInt8} {start stop : Nat} (ne : l ≠ []) :
    At (data.extract start stop) l 0 ↔ data.At l start ∧ start + l.length ≤ stop := by
  constructor
  · intro h
    have fits := h.fits ne
    have some := List.length_pos_iff.2 ne
    rw [Array.size_extract] at fits
    refine ⟨fun i less => ?_, by omega⟩
    rw [← h i less, Nat.zero_add, getElem?_of_extract rfl (by rw [Array.size_extract]; omega)]
  · rintro ⟨h, inside⟩ i less
    have fits := h.fits ne
    rw [← h i less, Nat.zero_add, getElem?_of_extract rfl (by rw [Array.size_extract]; omega)]

theorem toList_extract_eq_iff {data : Bytes} {l : List UInt8} {start : Nat} (ne : l ≠ [])
    (fits : start + l.length ≤ data.size) :
    (data.extract start (start + l.length)).toList = l ↔ data.At l start := by
  constructor
  · intro same
    have whole : At (data.extract start (start + l.length)) l 0 :=
      at_zero_iff_begins.2 ⟨[], by rw [List.append_nil, same]⟩
    exact ((at_extract_iff ne).1 whole).1
  · intro stands
    rw [stands.extract fits, List.toList_toArray]

/-- A text stands in front of the first zero byte. -/
theorem upToNul_eq_iff {bytes : Bytes} {text : List UInt8} :
    (bytes.upToNul.size ≠ bytes.size ∧ bytes.upToNul = text.toArray) ↔
      0 ∉ text ∧ bytes.At (text ++ [0]) 0 := by
  rw [at_zero_iff_begins, ← List.takeWhile_eq_iff_begins, ← toList_upToNul, and_comm]
  constructor
  · rintro ⟨same, shorter⟩
    rw [same] at shorter ⊢
    exact ⟨rfl, shorter⟩
  · rintro ⟨rfl, shorter⟩
    exact ⟨rfl, shorter⟩

end Bytes

namespace StreamHeader

/-- What is demanded of a stream in metadata of `size` bytes. -/
structure WellFormed (size : Nat) (h : StreamHeader) : Prop where
  /-- The name can be ended by a zero byte. -/
  free : 0 ∉ Utf8.encode h.name
  short : (Utf8.encode h.name).length ≤ 31
  addressable : h.stop < 0x100000000
  inside : h.stop ≤ size

/-- The bytes that an entry takes: two words, then the name and its zero byte in whole words. -/
def extent (h : StreamHeader) : Nat := 8 + wordEnd ((Utf8.encode h.name).length + 1)

/-- The entry stands at a position. -/
structure StandsAt (data : Bytes) (pos : Nat) (h : StreamHeader) : Prop where
  offset : data.leNat pos 4 = h.offset.toNat
  size : data.leNat (pos + 4) 4 = h.size.toNat
  name : data.At (Utf8.encode h.name ++ [0]) (pos + 8)
  room : pos + h.extent ≤ data.size

/-- The entries stand one behind the other. -/
def StandFrom (data : Bytes) : Nat → List StreamHeader → Prop
  | _, [] => True
  | pos, h :: later => h.StandsAt data pos ∧ StandFrom data (pos + h.extent) later

theorem length_encode (h : StreamHeader) : h.encode.length = h.extent := by
  simp only [encode, padding, List.length_append, Bytes.length_leBytes, List.length_replicate,
    List.length_singleton, extent, wordEnd]
  omega

theorem passName_eq_ok_iff {data name : Bytes} {pos : Nat} {text text' : String} {c' : Cursor}
    (inside : pos ≤ data.size) : passName name text ⟨data, pos⟩ = .ok text' c' ↔
      wordEnd (pos + (name.size + 1)) ≤ data.size ∧ text' = text ∧
        c' = ⟨data, wordEnd (pos + (name.size + 1))⟩ := by
  rw [passName, FixedLayout.bind_eq_ok inside]
  constructor
  · rintro ⟨fits, passed⟩
    obtain ⟨_, _, aligned, answer⟩ := bind_eq_ok.1 passed
    obtain ⟨room, rfl⟩ := (align_eq_ok fits).1 aligned
    obtain ⟨rfl, rfl⟩ := pure_eq_ok.1 answer
    exact ⟨room, rfl, rfl⟩
  · rintro ⟨room, rfl, rfl⟩
    have fits := Nat.le_trans (le_wordEnd _) room
    exact ⟨fits, bind_eq_ok.2 ⟨(), _, (align_eq_ok fits).2 ⟨room, rfl⟩, pure_eq_ok.2 ⟨rfl, rfl⟩⟩⟩

/-- A name is read if it stands there with its zero byte, and is passed over in whole words. -/
theorem readName_eq_ok_iff {data : Bytes} {pos : Nat} {text : String} {c' : Cursor}
    (inside : pos ≤ data.size) : readName ⟨data, pos⟩ = .ok text c' ↔
      (0 ∉ Utf8.encode text ∧ (Utf8.encode text).length ≤ 31) ∧
        data.At (Utf8.encode text ++ [0]) pos ∧
        wordEnd (pos + ((Utf8.encode text).length + 1)) ≤ data.size ∧
        c' = ⟨data, wordEnd (pos + ((Utf8.encode text).length + 1))⟩ := by
  have ends : (window data pos).At (Utf8.encode text ++ [0]) 0 ↔
      data.At (Utf8.encode text ++ [0]) pos ∧ (Utf8.encode text).length ≤ 31 := by
    rw [window, Bytes.at_extract_iff (by simp)]
    refine and_congr_right fun stands => ?_
    have fits := stands.fits (by simp)
    rw [List.length_append, List.length_singleton] at fits ⊢
    unfold nameLimit
    omega
  rw [readName_eq_ok, Utf8.decode?_eq_some, ← and_assoc, Bytes.upToNul_eq_iff, ends]
  constructor
  · rintro ⟨⟨free, stands, short⟩, passed⟩
    have name := (Bytes.upToNul_eq_iff.2 ⟨free, ends.2 ⟨stands, short⟩⟩).2
    rw [name] at passed
    obtain ⟨room, -, rfl⟩ := (passName_eq_ok_iff inside).1 passed
    exact ⟨⟨free, short⟩, stands, room, rfl⟩
  · rintro ⟨⟨free, short⟩, stands, room, rfl⟩
    have name := (Bytes.upToNul_eq_iff.2 ⟨free, ends.2 ⟨stands, short⟩⟩).2
    refine ⟨⟨free, stands, short⟩, ?_⟩
    rw [name]
    exact (passName_eq_ok_iff inside).2 ⟨room, rfl, rfl⟩

/-- An entry is read if it stands there and its name can be read; it takes whole words. -/
theorem read_eq_ok {data : Bytes} {pos : Nat} {h : StreamHeader} {c' : Cursor}
    (aligned : pos % 4 = 0) (inside : pos ≤ data.size) :
    read ⟨data, pos⟩ = .ok h c' ↔
      (0 ∉ Utf8.encode h.name ∧ (Utf8.encode h.name).length ≤ 31) ∧ h.StandsAt data pos ∧
        c' = ⟨data, pos + h.extent⟩ := by
  have behind (name : String) : wordEnd (pos + 4 + 4 + ((Utf8.encode name).length + 1)) =
      pos + (8 + wordEnd ((Utf8.encode name).length + 1)) := by
    rw [wordEnd_add (by omega)]
    omega
  unfold read
  constructor
  · intro found
    obtain ⟨first, found⟩ := (FixedLayout.bind_eq_ok inside).1 found
    obtain ⟨second, found⟩ := (FixedLayout.bind_eq_ok first).1 found
    obtain ⟨name, _, named, answer⟩ := bind_eq_ok.1 found
    obtain ⟨fine, stands, room, rfl⟩ := (readName_eq_ok_iff second).1 named
    obtain ⟨rfl, rfl⟩ := pure_eq_ok.1 answer
    rw [behind] at room ⊢
    exact ⟨fine, ⟨Bytes.uint32_eq_iff.1 rfl, Bytes.uint32_eq_iff.1 rfl, stands, room⟩, rfl⟩
  · rintro ⟨fine, ⟨offset, size, stands, room⟩, rfl⟩
    have second : pos + 4 + 4 ≤ data.size := Nat.le_of_add_right_le (stands.fits (by simp))
    have named := (readName_eq_ok_iff second).2 ⟨fine, stands, by rw [behind]; exact room, rfl⟩
    refine (FixedLayout.bind_eq_ok inside).2 ⟨Nat.le_of_add_right_le second, ?_⟩
    refine (FixedLayout.bind_eq_ok (Nat.le_of_add_right_le second)).2 ⟨second, ?_⟩
    refine bind_eq_ok.2 ⟨_, _, named, ?_⟩
    rw [behind, Bytes.uint32_eq_iff.2 offset, Bytes.uint32_eq_iff.2 size]
    rfl

/-- An entry of the list is also refused if its stream does not end within the metadata. -/
theorem readStream_eq_ok {size pos : Nat} {data : Bytes} {h : StreamHeader} {c' : Cursor}
    (aligned : pos % 4 = 0) (inside : pos ≤ data.size) :
    Root.readStream size ⟨data, pos⟩ = .ok h c' ↔
      h.WellFormed size ∧ h.StandsAt data pos ∧ c' = ⟨data, pos + h.extent⟩ := by
  unfold Root.readStream
  constructor
  · intro found
    obtain ⟨_, _, entry, found⟩ := bind_eq_ok.1 found
    obtain ⟨⟨free, short⟩, stands, rfl⟩ := (read_eq_ok aligned inside).1 entry
    obtain ⟨addressable, found⟩ := checked_eq_ok.1 found
    obtain ⟨within, found⟩ := checked_eq_ok.1 found
    obtain ⟨rfl, rfl⟩ := pure_eq_ok.1 found
    exact ⟨⟨free, short, Nat.not_le.1 addressable, Nat.not_lt.1 within⟩, stands, rfl⟩
  · rintro ⟨⟨free, short, addressable, within⟩, stands, rfl⟩
    refine bind_eq_ok.2 ⟨_, _, (read_eq_ok aligned inside).2 ⟨⟨free, short⟩, stands, rfl⟩, ?_⟩
    refine checked_eq_ok.2 ⟨Nat.not_le.2 addressable, ?_⟩
    exact checked_eq_ok.2 ⟨Nat.not_lt.2 within, rfl⟩

/-- The entries of a list are read if they stand one behind the other. -/
theorem runAt_times_readStream_eq_ok {size n pos : Nat} {data : Bytes} {l : List StreamHeader}
    (aligned : pos % 4 = 0) (inside : pos ≤ data.size) :
    (times (Root.readStream size) n).runAt data pos = .ok l ↔
      l.length = n ∧ (∀ h ∈ l, h.WellFormed size) ∧ StandFrom data pos l := by
  induction n generalizing pos l with
  | zero =>
    rw [times, runAt_eq_ok]
    constructor
    · rintro ⟨_, found⟩
      obtain ⟨rfl, -⟩ := pure_eq_ok.1 found
      exact ⟨rfl, fun h mem => absurd mem List.not_mem_nil, trivial⟩
    · rintro ⟨none, -⟩
      obtain rfl := List.length_eq_zero_iff.1 none
      exact ⟨_, rfl⟩
  | succ n ih =>
    have next (h : StreamHeader) : (pos + h.extent) % 4 = 0 := by
      have := wordEnd_mod ((Utf8.encode h.name).length + 1)
      unfold extent
      omega
    rw [times, runAt_eq_ok]
    constructor
    · rintro ⟨_, found⟩
      obtain ⟨h, _, entry, found⟩ := bind_eq_ok.1 found
      obtain ⟨later, _, rest, answer⟩ := bind_eq_ok.1 found
      obtain ⟨rfl, -⟩ := pure_eq_ok.1 answer
      obtain ⟨sound, stands, rfl⟩ := (readStream_eq_ok aligned inside).1 entry
      obtain ⟨length, all, behind⟩ := (ih (next h) stands.room).1 (runAt_eq_ok.2 ⟨_, rest⟩)
      exact ⟨congrArg (· + 1) length, List.forall_mem_cons.2 ⟨sound, all⟩, stands, behind⟩
    · rintro ⟨length, all, chain⟩
      obtain ⟨h, later, rfl⟩ := List.exists_cons_of_length_eq_add_one length
      obtain ⟨sound, all⟩ := List.forall_mem_cons.1 all
      obtain ⟨stands, behind⟩ := chain
      have length := Nat.succ.inj length
      obtain ⟨c', rest⟩ := runAt_eq_ok.1 ((ih (next h) stands.room).2 ⟨length, all, behind⟩)
      have entry := (readStream_eq_ok aligned inside).2 ⟨sound, stands, rfl⟩
      exact ⟨c', bind_eq_ok.2 ⟨_, _, entry, bind_eq_ok.2 ⟨_, _, rest, rfl⟩⟩⟩

theorem standFrom_of_at {data : Bytes} {pos : Nat} {l : List StreamHeader}
    (stand : data.At (l.flatMap encode) pos) : StandFrom data pos l := by
  induction l generalizing pos with
  | nil => trivial
  | cons h l ih =>
    rw [List.flatMap_cons] at stand
    have room := stand.left.fits (by simp [encode])
    have behind := stand.right
    rw [length_encode] at room behind
    have form := stand.left
    unfold encode at form
    exact ⟨⟨form.left.left.left.leNat h.offset.toNat_lt, form.left.left.right.leNat h.size.toNat_lt,
      form.left.right, room⟩, ih behind⟩

end StreamHeader

namespace RootHeader

theorem any_behind_eq_false_iff {bytes : Bytes} {text : List UInt8} (front : text <+: bytes.toList) :
    (bytes.extract text.length bytes.size).any (· ≠ 0) = false ↔
      bytes.toList = text ++ List.replicate (bytes.size - text.length) 0 := by
  obtain ⟨rest, split⟩ := front
  obtain rfl : bytes = (text ++ rest).toArray := by rw [split, Array.toArray_toList]
  have behind : (text ++ rest).toArray.extract text.length (text ++ rest).toArray.size =
      rest.toArray := by simp
  have length : (text ++ rest).toArray.size - text.length = rest.length := by simp
  rw [behind, length, List.append_right_inj, List.any_toArray, List.any_eq_false,
    List.eq_replicate_iff, and_iff_right rfl]
  simp

/-- The text of a version is followed by a zero byte and by nothing but zeros. -/
theorem versionOf_eq_ok {length : UInt32} {bytes : Bytes} {version : String} :
    versionOf length bytes = .ok version ↔
      (0 ∉ Utf8.encode version ∧ (Utf8.encode version).length < bytes.size) ∧
        bytes.toList = Utf8.encode version ++
          List.replicate (bytes.size - (Utf8.encode version).length) 0 := by
  unfold versionOf
  constructor
  · intro found
    dsimp only at found
    split at found
    · cases found
    · next ends =>
      split at found
      · cases found
      · next zeros =>
        split at found
        · cases found
        · next text decoded =>
          cases found
          have same := Utf8.decode?_eq_some.1 decoded
          obtain ⟨free, stands⟩ := Bytes.upToNul_eq_iff.1 ⟨ends, same⟩
          have front := Bytes.at_zero_iff_begins.1 stands
          have shorter := front.length_le
          rw [List.length_append, List.length_singleton, Array.length_toList] at shorter
          rw [Bool.not_eq_true, same, List.size_toArray] at zeros
          exact ⟨⟨free, shorter⟩,
            (any_behind_eq_false_iff ((List.prefix_append _ _).trans front)).1 zeros⟩
  · rintro ⟨⟨free, shorter⟩, split⟩
    have front : Utf8.encode version ++ [0] <+: bytes.toList := by
      obtain ⟨more, zeros⟩ := Nat.exists_eq_succ_of_ne_zero (Nat.sub_ne_zero_of_lt shorter)
      rw [split, zeros, List.replicate_succ]
      exact ⟨List.replicate more 0, List.append_assoc ..⟩
    have zeros := (any_behind_eq_false_iff ((List.prefix_append _ _).trans front)).2 split
    obtain ⟨ends, same⟩ := Bytes.upToNul_eq_iff.2 ⟨free, Bytes.at_zero_iff_begins.2 front⟩
    have decoded := Utf8.decode?_eq_some.2 same
    rw [← List.size_toArray, ← same] at zeros
    dsimp only
    rw [if_neg ends, zeros, decoded]
    rfl

/-- What is demanded of the fields. -/
structure WellFormed (h : RootHeader) : Prop where
  signature : h.signature = expectedSignature
  /-- The version can be ended by a zero byte, and there is room for it. -/
  free : 0 ∉ Utf8.encode h.version
  room : (Utf8.encode h.version).length < h.versionLength.toNat
  some : 1 ≤ h.streamCount.toNat

/-- The position behind the bytes set aside for the version, in whole words. -/
def versionEnd (h : RootHeader) : Nat := wordEnd (16 + h.versionLength.toNat)

theorem versionEnd_aligned (h : RootHeader) : (h.versionEnd + 4) % 4 = 0 := by
  rw [Nat.add_mod_right]
  exact wordEnd_mod _

/-- The fields stand at the start of the metadata. -/
structure StandsIn (data : Bytes) (h : RootHeader) : Prop where
  signature : data.leNat 0 4 = h.signature.toNat
  major : data.leNat 4 2 = h.major.toNat
  minor : data.leNat 6 2 = h.minor.toNat
  reserved : data.leNat 8 4 = h.reserved.toNat
  versionLength : data.leNat 12 4 = h.versionLength.toNat
  version : data.At (Utf8.encode h.version ++
    List.replicate (h.versionLength.toNat - (Utf8.encode h.version).length) 0) 16
  flags : data.leNat h.versionEnd 2 = h.flags.toNat
  streamCount : data.leNat (h.versionEnd + 2) 2 = h.streamCount.toNat
  fits : h.versionEnd + 4 ≤ data.size

/-- Reads the version and its padding. -/
def readVersion (length : UInt32) : Reader String := do
  let version ← Reader.ofExcept (versionOf length (← Reader.take length.toNat))
  Reader.align 4
  return version

theorem readVersion_eq_ok {length : UInt32} {data : Bytes} {pos : Nat} {version : String} {c' : Cursor}
    (inside : pos ≤ data.size) : readVersion length ⟨data, pos⟩ = .ok version c' ↔
      (0 ∉ Utf8.encode version ∧ (Utf8.encode version).length < length.toNat) ∧
        data.At (Utf8.encode version ++
          List.replicate (length.toNat - (Utf8.encode version).length) 0) pos ∧
        wordEnd (pos + length.toNat) ≤ data.size ∧ c' = ⟨data, wordEnd (pos + length.toNat)⟩ := by
  have cut (fits : pos + length.toNat ≤ data.size) :
      versionOf length (data.extract pos (pos + length.toNat)) = .ok version ↔
        (0 ∉ Utf8.encode version ∧ (Utf8.encode version).length < length.toNat) ∧
          data.At (Utf8.encode version ++
            List.replicate (length.toNat - (Utf8.encode version).length) 0) pos := by
    have size : (data.extract pos (pos + length.toNat)).size = length.toNat := by
      rw [Array.size_extract]
      omega
    rw [versionOf_eq_ok, size]
    refine and_congr_right fun ⟨_, shorter⟩ => ?_
    have whole : (Utf8.encode version ++
        List.replicate (length.toNat - (Utf8.encode version).length) 0).length = length.toNat := by
      rw [List.length_append, List.length_replicate]
      omega
    have stands := @Bytes.toList_extract_eq_iff data _ pos
      (List.ne_nil_of_length_pos (whole ▸ Nat.zero_lt_of_lt shorter)) (whole.symm ▸ fits)
    rwa [whole] at stands
  rw [readVersion, FixedLayout.bind_eq_ok inside]
  constructor
  · rintro ⟨fits, found⟩
    obtain ⟨_, _, decoded, found⟩ := bind_eq_ok.1 found
    obtain ⟨text, rfl⟩ := ofExcept_eq_ok.1 decoded
    obtain ⟨_, _, aligned, answer⟩ := bind_eq_ok.1 found
    obtain ⟨room, rfl⟩ := (align_eq_ok fits).1 aligned
    obtain ⟨rfl, rfl⟩ := pure_eq_ok.1 answer
    obtain ⟨fine, stands⟩ := (cut fits).1 text
    exact ⟨fine, stands, room, rfl⟩
  · rintro ⟨fine, stands, room, rfl⟩
    have fits := Nat.le_trans (le_wordEnd _) room
    have text := (cut fits).2 ⟨fine, stands⟩
    refine ⟨fits, bind_eq_ok.2 ⟨_, _, ofExcept_eq_ok.2 ⟨text, rfl⟩, ?_⟩⟩
    exact bind_eq_ok.2 ⟨(), _, (align_eq_ok fits).2 ⟨room, rfl⟩, rfl⟩

/-- The fields are read if they stand at the start of the metadata. -/
theorem read_eq_ok {data : Bytes} {h : RootHeader} {c' : Cursor} :
    read ⟨data, 0⟩ = .ok h c' ↔
      h.WellFormed ∧ h.StandsIn data ∧ c' = ⟨data, h.versionEnd + 4⟩ := by
  have steps : read = do
      let signature ← Reader.u32
      if signature ≠ expectedSignature then Reader.malformed (.rootSignature signature)
      let major ← Reader.u16
      let minor ← Reader.u16
      let reserved ← Reader.u32
      let versionLength ← Reader.u32
      let version ← readVersion versionLength
      let flags ← Reader.u16
      let streamCount ← Reader.u16
      if streamCount = 0 then Reader.malformed .noStreams
      return { signature, major, minor, reserved, versionLength, version, flags, streamCount } := by
    simp only [read, readVersion, bind_assoc, pure_bind]
  rw [steps]
  constructor
  · intro found
    obtain ⟨fits, found⟩ := (FixedLayout.bind_eq_ok (Nat.zero_le _)).1 found
    obtain ⟨known, found⟩ := checked_eq_ok.1 found
    obtain ⟨fits, found⟩ := (FixedLayout.bind_eq_ok fits).1 found
    obtain ⟨fits, found⟩ := (FixedLayout.bind_eq_ok fits).1 found
    obtain ⟨fits, found⟩ := (FixedLayout.bind_eq_ok fits).1 found
    obtain ⟨fits, found⟩ := (FixedLayout.bind_eq_ok fits).1 found
    obtain ⟨version, _, text, found⟩ := bind_eq_ok.1 found
    obtain ⟨⟨free, shorter⟩, stands, room, rfl⟩ := (readVersion_eq_ok fits).1 text
    obtain ⟨fits, found⟩ := (FixedLayout.bind_eq_ok room).1 found
    obtain ⟨fits, found⟩ := (FixedLayout.bind_eq_ok fits).1 found
    obtain ⟨some, found⟩ := checked_eq_ok.1 found
    obtain ⟨rfl, rfl⟩ := pure_eq_ok.1 found
    refine ⟨⟨Decidable.not_not.1 known, free, shorter, ?_⟩, ⟨Bytes.uint32_eq_iff.1 rfl,
      Bytes.uint16_eq_iff.1 rfl, Bytes.uint16_eq_iff.1 rfl, Bytes.uint32_eq_iff.1 rfl,
      Bytes.uint32_eq_iff.1 rfl, stands, Bytes.uint16_eq_iff.1 rfl, Bytes.uint16_eq_iff.1 rfl,
      fits⟩, rfl⟩
    exact Nat.pos_of_ne_zero fun zero => some (UInt16.toNat_inj.1 zero)
  · rintro ⟨sound, stands, rfl⟩
    have fits := stands.fits
    have room : 16 + h.versionLength.toNat ≤ h.versionEnd := le_wordEnd _
    have known : ¬ h.signature ≠ expectedSignature := not_not_intro sound.signature
    have some : ¬ h.streamCount = 0 := fun zero => by
      have := sound.some
      rw [zero] at this
      exact absurd this (by decide)
    have version := (@readVersion_eq_ok h.versionLength data 16 _ _ (by omega)).2
      ⟨⟨sound.free, sound.room⟩, stands.version, Nat.le_of_add_right_le fits, rfl⟩
    refine (FixedLayout.bind_eq_ok (Nat.zero_le _)).2 ⟨by omega, ?_⟩
    rw [Bytes.uint32_eq_iff.2 stands.signature]
    refine checked_eq_ok.2 ⟨known, ?_⟩
    refine (FixedLayout.bind_eq_ok (by omega)).2 ⟨by omega, ?_⟩
    refine (FixedLayout.bind_eq_ok (by omega)).2 ⟨by omega, ?_⟩
    refine (FixedLayout.bind_eq_ok (by omega)).2 ⟨by omega, ?_⟩
    refine (FixedLayout.bind_eq_ok (by omega)).2 ⟨by omega, ?_⟩
    rw [Bytes.uint16_eq_iff.2 stands.major, Bytes.uint16_eq_iff.2 stands.minor,
      Bytes.uint32_eq_iff.2 stands.reserved, Bytes.uint32_eq_iff.2 stands.versionLength]
    refine bind_eq_ok.2 ⟨_, _, version, ?_⟩
    rw [← versionEnd]
    refine (FixedLayout.bind_eq_ok (Nat.le_of_add_right_le fits)).2 ⟨by omega, ?_⟩
    refine (FixedLayout.bind_eq_ok (by omega)).2 ⟨by omega, ?_⟩
    rw [Bytes.uint16_eq_iff.2 stands.flags, Bytes.uint16_eq_iff.2 stands.streamCount]
    exact checked_eq_ok.2 ⟨some, rfl⟩

end RootHeader

namespace Root

/-- What is demanded of a root in metadata of `size` bytes. -/
structure WellFormed (size : Nat) (r : Root) : Prop where
  header : r.toRootHeader.WellFormed
  count : r.streams.length = r.streamCount.toNat
  streams : ∀ h ∈ r.streams, h.WellFormed size

/-- The root stands at the start of the metadata: its fields, then its entries one behind the other. -/
structure StandsIn (data : Bytes) (r : Root) : Prop where
  header : r.toRootHeader.StandsIn data
  streams : StreamHeader.StandFrom data (r.versionEnd + 4) r.streams

theorem read_eq_ok_iff {data : Bytes} {r : Root} :
    read data = .ok r ↔ r.WellFormed data.size ∧ r.StandsIn data := by
  rw [read_eq_run, run_eq_ok]
  unfold reader
  constructor
  · rintro ⟨_, found⟩
    obtain ⟨header, _, front, found⟩ := bind_eq_ok.1 found
    obtain ⟨streams, _, list, answer⟩ := bind_eq_ok.1 found
    obtain ⟨rfl, -⟩ := pure_eq_ok.1 answer
    obtain ⟨sound, stands, rfl⟩ := RootHeader.read_eq_ok.1 front
    obtain ⟨count, all, chain⟩ := (StreamHeader.runAt_times_readStream_eq_ok
      header.versionEnd_aligned stands.fits).1 (runAt_eq_ok.2 ⟨_, list⟩)
    exact ⟨⟨sound, count, all⟩, stands, chain⟩
  · rintro ⟨⟨sound, count, all⟩, stands, chain⟩
    obtain ⟨c', list⟩ := runAt_eq_ok.1 ((StreamHeader.runAt_times_readStream_eq_ok
      r.versionEnd_aligned stands.fits).2 ⟨count, all, chain⟩)
    have front := RootHeader.read_eq_ok.2 ⟨sound, stands, rfl⟩
    exact ⟨c', bind_eq_ok.2 ⟨_, _, front, bind_eq_ok.2 ⟨_, _, list, rfl⟩⟩⟩

theorem standsIn_of_at {data : Bytes} {r : Root} (sound : r.toRootHeader.WellFormed)
    (form : data.At r.encode 0) : r.StandsIn data := by
  have room := sound.room
  obtain ⟨header, streams⟩ := Bytes.At.append.1 form
  have list := StreamHeader.standFrom_of_at streams
  have length : r.toRootHeader.encode.length = r.versionEnd + 4 := by
    simp only [RootHeader.encode, StreamHeader.padding, List.length_append, Bytes.length_leBytes,
      List.length_replicate, RootHeader.versionEnd, wordEnd]
    omega
  have fits := header.fits (List.ne_nil_of_length_pos (by omega))
  rw [length, Nat.zero_add] at list fits
  simp only [RootHeader.encode, Bytes.At.append, List.length_append, Bytes.length_leBytes,
    StreamHeader.padding, List.length_replicate, Nat.zero_add, Nat.reduceAdd] at header
  obtain ⟨⟨⟨⟨⟨⟨⟨⟨⟨signature, major⟩, minor⟩, reserved⟩, size⟩, version⟩, zeros⟩, -⟩, flags⟩, count⟩ :=
    header
  have behind : 16 + (Utf8.encode r.version).length +
      (r.versionLength.toNat - (Utf8.encode r.version).length) +
        (4 - r.versionLength.toNat % 4) % 4 = r.versionEnd := by
    unfold RootHeader.versionEnd wordEnd
    omega
  rw [behind] at flags count
  exact ⟨⟨signature.leNat r.signature.toNat_lt, major.leNat r.major.toNat_lt,
    minor.leNat r.minor.toNat_lt, reserved.leNat r.reserved.toNat_lt,
    size.leNat r.versionLength.toNat_lt, Bytes.At.append.2 ⟨version, zeros⟩,
    flags.leNat r.flags.toNat_lt, count.leNat r.streamCount.toNat_lt, fits⟩, list⟩

/--
The root is read exactly if it is well formed and stands at the start of the metadata. A
well-formed root is therefore read back from its form, whatever stands behind the form, if
its streams end within the whole.
-/
theorem read_iff_stands :
    (∀ data r, read data = .ok r ↔ r.WellFormed data.size ∧ r.StandsIn data) ∧
      ∀ (r : Root) (rest : List UInt8), r.WellFormed (r.encode ++ rest).length →
        read (r.encode ++ rest).toArray = .ok r := by
  refine ⟨fun _ _ => read_eq_ok_iff, fun r rest sound => ?_⟩
  rw [read_eq_ok_iff, List.size_toArray]
  exact ⟨sound, standsIn_of_at sound.header (Bytes.at_toArray _).left⟩

/--
A root with five bytes set aside for its version. The name of its first stream is as long
as names can be, its second stream is empty and lies at the end of the metadata.
-/
def longName : Root :=
  ⟨⟨RootHeader.expectedSignature, 1, 1, 0, 5, "v2", 0, 2⟩,
    [⟨80, 4, "abcdefghijklmnopqrstuvwxyzabcde"⟩, ⟨84, 0, "#~"⟩]⟩

theorem read_iff_stands_longName :
    longName.WellFormed 84 ∧ read (longName.encode ++ [1, 2, 3, 4]).toArray = .ok longName ∧
      (∃ h ∈ longName.streams, (Utf8.encode h.name).length = 31) ∧
      read (longName.encode ++ [1, 2, 3]).toArray ≠ .ok longName := by
  have length : longName.encode.length = 80 := by decide +kernel
  have sound : longName.WellFormed 84 := by
    refine ⟨⟨rfl, by decide +kernel, by decide +kernel, by decide +kernel⟩, rfl, ?_⟩
    refine List.forall_mem_cons.2 ⟨⟨?_, ?_, ?_, ?_⟩, List.forall_mem_singleton.2 ⟨?_, ?_, ?_, ?_⟩⟩
    all_goals decide +kernel
  have whole : (longName.encode ++ [1, 2, 3, 4]).length = 84 := by rw [List.length_append, length]; rfl
  refine ⟨sound, read_iff_stands.2 longName [1, 2, 3, 4] (whole ▸ sound), ?_, fun found => ?_⟩
  · exact ⟨_, List.mem_cons_self, by decide +kernel⟩
  · obtain ⟨short, -⟩ := (read_iff_stands.1 _ _).1 found
    have inside := (short.streams _ List.mem_cons_self).inside
    rw [List.size_toArray, List.length_append, length] at inside
    exact absurd inside (by decide)

end Root

end ManagedImage
