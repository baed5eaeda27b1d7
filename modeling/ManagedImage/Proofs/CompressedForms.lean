/-
The forms of compressed numbers. A number is read exactly where one of its forms stands
(`Compressed.read_eq_ok_iff`), and the first byte of a form tells how many bytes there are
(`Compressed.Form.length_eq`), so no form begins another and a reader never stops within one
(`Compressed.Form.eq_of_isPrefix`). A number below `0x4000` has longer forms beside the
shortest one, and a number of `Compressed.limit` or more has none.

Blobs that were put into a heap one behind the other are found where they were put, each
behind the blobs in front of it (`BlobHeap.get_build`). The position that is handed out for a
blob is this one modulo `2 ^ 32`. Behind `2 ^ 32` bytes it is one in front of the blob, where
something else may stand (`wrapped_offset_finds_another_blob`).

Main statement: `numbers_and_blobs_read_back`.
-/
import ManagedImage.Heap.Blobs
import ManagedImage.Proofs.WrittenForms

namespace ManagedImage

open Reader

namespace Compressed

/-- The forms of numbers, the shortest and the longer ones. The first byte tells the length. -/
inductive Form : List UInt8 → Nat → Prop
  | one {lead : UInt8} (high : lead.toNat < 0x80) : Form [lead] lead.toNat
  | two {lead b₁ : UInt8} (low : 0x80 ≤ lead.toNat) (high : lead.toNat < 0xC0) :
      Form [lead, b₁] ((lead.toNat - 0x80) * 256 + b₁.toNat)
  | four {lead b₁ b₂ b₃ : UInt8} (low : 0xC0 ≤ lead.toNat) (high : lead.toNat < 0xE0) :
      Form [lead, b₁, b₂, b₃]
        ((((lead.toNat - 0xC0) * 256 + b₁.toNat) * 256 + b₂.toNat) * 256 + b₃.toNat)

section Width

variable {lead : UInt8}

theorem width_one (high : lead.toNat < 0x80) : width lead = 1 :=
  if_pos (UInt8.lt_iff_toNat_lt.2 high)

theorem width_two (low : 0x80 ≤ lead.toNat) (high : lead.toNat < 0xC0) : width lead = 2 := by
  have notOne : ¬ lead < 0x80 := fun lt => Nat.not_lt_of_le low (UInt8.lt_iff_toNat_lt.1 lt)
  rw [width, if_neg notOne, if_pos (UInt8.lt_iff_toNat_lt.2 high)]

theorem width_four (low : 0xC0 ≤ lead.toNat) (high : lead.toNat < 0xE0) : width lead = 4 := by
  have notTwo : ¬ lead < 0xC0 := fun lt => Nat.not_lt_of_le low (UInt8.lt_iff_toNat_lt.1 lt)
  have notOne : ¬ lead < 0x80 := fun lt => notTwo (UInt8.lt_trans lt (by decide))
  rw [width, if_neg notOne, if_neg notTwo, if_pos (UInt8.lt_iff_toNat_lt.2 high)]

end Width

namespace Form

variable {l l' : List UInt8} {n n' : Nat} {c : Cursor}

theorem lt_limit (h : Form l n) : n < limit := by
  unfold limit
  cases h with
  | one high => omega
  | @two _ b₁ low high =>
    have b₁ := b₁.toNat_lt
    omega
  | @four _ b₁ b₂ b₃ low high =>
    have b₁ := b₁.toNat_lt
    have b₂ := b₂.toNat_lt
    have b₃ := b₃.toNat_lt
    omega

/-- The first byte is one that begins a number, and tells how many bytes there are. -/
theorem length_eq (h : Form l n) :
    ∃ lead rest, l = lead :: rest ∧ lead.toNat < 0xE0 ∧ l.length = width lead := by
  cases h with
  | @one lead high => exact ⟨lead, [], rfl, by omega, (width_one high).symm⟩
  | @two lead b₁ low high => exact ⟨lead, [b₁], rfl, by omega, (width_two low high).symm⟩
  | @four lead b₁ b₂ b₃ low high =>
    exact ⟨lead, [b₁, b₂, b₃], rfl, high, (width_four low high).symm⟩

/-- No form begins another one. -/
theorem eq_of_isPrefix (h : Form l n) (h' : Form l' n') (front : l <+: l') : l = l' := by
  obtain ⟨lead, rest, rfl, -, size⟩ := h.length_eq
  obtain ⟨lead', rest', rfl, -, size'⟩ := h'.length_eq
  obtain ⟨rfl, -⟩ := List.cons_prefix_cons.1 front
  exact front.eq_of_length (size.trans size'.symm)

theorem read_eq (h : Form l n) (there : c.data.At l c.pos) :
    read c = .ok n { c with pos := c.pos + l.length } := by
  cases h with
  | one high => rw [read_of_lead (u8_of_at there), readRest_one _ high]; rfl
  | two low high => rw [read_of_lead (u8_of_at there), readRest_two _ low high there.tail]; rfl
  | four low high => rw [read_of_lead (u8_of_at there), readRest_four _ low high there.tail]; rfl

end Form

variable {c c' : Cursor} {n : Nat}

theorem encode_ne_nil (n : Nat) : encode n ≠ [] := by
  unfold encode
  split
  · exact List.cons_ne_nil _ _
  · split <;> exact List.cons_ne_nil _ _

/-- Where a byte that begins a number is followed by enough others, a form stands. -/
theorem exists_form {lead : UInt8} (first : c.data[c.pos]? = some lead) (begins : lead < 0xE0)
    (fits : c.pos + width lead ≤ c.data.size) :
    ∃ l n, Form l n ∧ c.data.At l c.pos := by
  have begins : lead.toNat < 0xE0 := UInt8.lt_iff_toNat_lt.1 begins
  have next (k : Nat) (inside : c.pos + k < c.data.size) := Bytes.getElem?_of_inside inside
  have nil (pos : Nat) : c.data.At [] pos := nofun
  by_cases one : lead.toNat < 0x80
  · exact ⟨_, _, .one one, .cons first (nil _)⟩
  by_cases two : lead.toNat < 0xC0
  · rw [width_two (Nat.le_of_not_lt one) two] at fits
    exact ⟨_, _, .two (Nat.le_of_not_lt one) two, .cons first (.cons (next 1 (by omega)) (nil _))⟩
  · rw [width_four (Nat.le_of_not_lt two) begins] at fits
    exact ⟨_, _, .four (Nat.le_of_not_lt two) begins, .cons first (.cons (next 1 (by omega))
      (.cons (next 2 (by omega)) (.cons (next 3 (by omega)) (nil _))))⟩

/-- A number is read exactly where a byte that begins one is followed by enough others. -/
theorem read_succeeds_iff :
    (∃ n c', read c = .ok n c') ↔
      ∃ lead, c.data[c.pos]? = some lead ∧ lead < 0xE0 ∧ c.pos + width lead ≤ c.data.size := by
  constructor
  · intro succeeds
    obtain ⟨n, c', h⟩ := succeeds
    obtain ⟨rfl, fits⟩ := read_eq_ok h
    cases byte : u8 c with
    | error e c₁ => rw [read_of_error byte] at h; cases h
    | ok lead c₁ =>
      rw [read_of_lead byte] at h
      obtain ⟨inside, rfl, rfl⟩ := u8_keeps byte
      refine ⟨_, Bytes.getElem?_of_inside inside, Decidable.byContradiction fun none => ?_, fits⟩
      have notTwo : ¬ c.data.getD c.pos 0 < 0xC0 := fun lt => none (UInt8.lt_trans lt (by decide))
      have notOne : ¬ c.data.getD c.pos 0 < 0x80 := fun lt => notTwo (UInt8.lt_trans lt (by decide))
      rw [readRest, if_neg notOne, if_neg notTwo, if_neg none] at h
      cases h
  · intro stands
    obtain ⟨lead, first, begins, fits⟩ := stands
    obtain ⟨l, n, form, there⟩ := exists_form first begins fits
    exact ⟨n, _, form.read_eq there⟩

/-- A number is read exactly where one of its forms stands, which is passed over. -/
theorem read_eq_ok_iff :
    read c = .ok n c' ↔
      ∃ l, Form l n ∧ c.data.At l c.pos ∧ c' = { c with pos := c.pos + l.length } := by
  constructor
  · intro h
    obtain ⟨lead, first, begins, fits⟩ := read_succeeds_iff.1 ⟨n, c', h⟩
    obtain ⟨l, m, form, there⟩ := exists_form first begins fits
    rw [form.read_eq there] at h
    cases h
    exact ⟨l, form, there, rfl⟩
  · intro stands
    obtain ⟨l, form, there, rfl⟩ := stands
    exact form.read_eq there

theorem form_of_read (h : read c = .ok n c') : Form (c.data.extract c.pos c'.pos).toList n := by
  obtain ⟨l, form, there, rfl⟩ := read_eq_ok_iff.1 h
  have some : l ≠ [] := by
    obtain ⟨lead, rest, rfl, -⟩ := form.length_eq
    exact List.cons_ne_nil _ _
  rw [there.extract (there.fits some)]
  exact form

theorem read_keeps (h : read c = .ok n c') :
    ∃ lead, c.data[c.pos]? = some lead ∧ c' = { c with pos := c.pos + width lead } := by
  obtain ⟨l, form, there, rfl⟩ := read_eq_ok_iff.1 h
  obtain ⟨lead, rest, rfl, -, size⟩ := form.length_eq
  exact ⟨lead, there.head, by rw [size]⟩

end Compressed

/-! ## Blobs -/

namespace BlobHeap

variable {h : BlobHeap} {pos : Nat} {blob : List UInt8} {blobs : List (List UInt8)}

theorem get_of_encode (short : blob.length < Compressed.limit) (there : h.data.At (encode blob) pos) :
    h.get pos = .ok blob.toArray := by
  have fits := there.fits (List.append_ne_nil_of_left_ne_nil (Compressed.encode_ne_nil _) _)
  rw [encode, List.length_append] at fits
  obtain ⟨form, content⟩ := Bytes.At.append.1 there
  have sought : Reader.seek pos ⟨h.data, 0⟩ = .ok () ⟨h.data, pos⟩ := if_pos (by simp only; omega)
  have number := Compressed.read_encode short (c := ⟨h.data, pos⟩) form
  unfold get run runAt readBlob
  rw [bind_of_ok sought, bind_of_ok number, take_of_at content (by simp only; omega)]

theorem get_of_zero (zero : h.data[pos]? = some 0) : h.get pos = .ok #[] := by
  have there : h.data.At (encode []) pos := .cons zero nofun
  exact get_of_encode (by decide) there

theorem data_build (blobs : List (List UInt8)) :
    (build blobs).data = (0 :: blobs.flatMap encode).toArray := BuiltHeap.data_ofItems encode blobs

theorem size_build (blobs : List (List UInt8)) :
    (build blobs).data.size = 1 + (blobs.flatMap encode).length := by
  rw [data_build, List.size_toArray, List.length_cons, Nat.add_comm]

theorem opens_build (blobs : List (List UInt8)) :
    ofBytes (build blobs).data = .ok ⟨(build blobs).data⟩ := by
  refine if_pos ?_
  rw [data_build]
  rfl

/-- A blob of a heap that was built is found behind the blobs in front of it. -/
theorem get_build {k : Nat} (short : blob.length < Compressed.limit) (there : blobs[k]? = some blob) :
    (BlobHeap.mk (build blobs).data).get (build (blobs.take k)).data.size = .ok blob.toArray :=
  get_of_encode short (BuiltHeap.at_ofItems there)

theorem offsets_build {k : Nat} (there : blobs[k]? = some blob) :
    (build blobs).offsets[k]? = some (build (blobs.take k)).offset :=
  BuiltHeap.offsets_ofItems there

end BlobHeap

open Compressed in
/--
**Compressed numbers and blobs are read back.** The form in which a number below `limit` is
written is read as the number, whatever stands around it, and passed over to its last byte.
A number is read exactly where a byte below `0xE0` is followed by as many others as it tells;
it is below `limit`, and no more bytes are passed over than these. The bytes that are read as a
number never begin those that are read as another. Each blob of a heap that was built is
found behind the blobs in front of it. That is also the position that was handed out for it if
these take fewer than `2 ^ 32` bytes, and otherwise it is equal to it modulo `2 ^ 32`.
-/
theorem numbers_and_blobs_read_back :
    (∀ n < limit, ∀ before after : List UInt8,
      read ⟨(before ++ encode n ++ after).toArray, before.length⟩ =
        .ok n ⟨(before ++ encode n ++ after).toArray, before.length + (encode n).length⟩ ∧
      (encode n).length = if n < 0x80 then 1 else if n < 0x4000 then 2 else 4) ∧
    (∀ c : Cursor, (∃ n c', read c = .ok n c') ↔
      ∃ lead, c.data[c.pos]? = some lead ∧ lead < 0xE0 ∧ c.pos + width lead ≤ c.data.size) ∧
    (∀ (c c' : Cursor) (n : Nat), read c = .ok n c' → n < limit ∧
      ∃ lead, c.data[c.pos]? = some lead ∧ c' = { c with pos := c.pos + width lead }) ∧
    (∀ (c c' d d' : Cursor) (n m : Nat), read c = .ok n c' → read d = .ok m d' →
      (c.data.extract c.pos c'.pos).toList <+: (d.data.extract d.pos d'.pos).toList →
      c.data.extract c.pos c'.pos = d.data.extract d.pos d'.pos) ∧
    ∀ blobs : List (List UInt8), (∀ blob ∈ blobs, blob.length < limit) →
      ∃ h, BlobHeap.ofBytes (BlobHeap.build blobs).data = .ok h ∧
        ∀ k blob, blobs[k]? = some blob →
          let place := (BlobHeap.build (blobs.take k)).data.size
          h.get place = .ok blob.toArray ∧
          ∃ offset, (BlobHeap.build blobs).offsets[k]? = some offset ∧
            offset.toNat = place % UInt32.size ∧
            (place < UInt32.size → h.get offset.toNat = .ok blob.toArray) := by
  refine ⟨fun n small before after => ?_, fun c => read_succeeds_iff, fun c c' n h => ?_,
    fun c c' d d' n m h h' front => ?_, fun blobs short => ?_⟩
  · exact ⟨read_encode small (Bytes.at_append before (encode n) after), length_encode n⟩
  · exact ⟨(form_of_read h).lt_limit, read_keeps h⟩
  · exact Array.toList_inj.1 ((form_of_read h).eq_of_isPrefix (form_of_read h') front)
  · refine ⟨_, BlobHeap.opens_build blobs, fun k blob there => ?_⟩
    have found := BlobHeap.get_build (short blob (List.mem_of_getElem? there)) there
    refine ⟨found, _, BlobHeap.offsets_build there, BuiltHeap.toNat_offset _, fun small => ?_⟩
    rw [BuiltHeap.toNat_offset_of_lt small, found]

/-- Blobs with lengths of one, two and four bytes, among them an empty one. -/
def blobsOfEachWidth : List (List UInt8) := [[], List.replicate 0x80 7, List.replicate 0x4000 8, [9]]

theorem numbers_and_blobs_read_back_each_width :
    0x4000 < Compressed.limit ∧
    Compressed.read ⟨#[0x5A, 0xC0, 0x00, 0x40, 0x00, 0xFF], 1⟩ =
      .ok 0x4000 ⟨#[0x5A, 0xC0, 0x00, 0x40, 0x00, 0xFF], 5⟩ ∧
    (∀ blob ∈ blobsOfEachWidth, blob.length < Compressed.limit) ∧
    ∃ h, BlobHeap.ofBytes (BlobHeap.build blobsOfEachWidth).data = .ok h ∧
      h.get 1 = .ok #[] ∧ h.get 0x4088 = .ok #[9] ∧
      ∃ offset, (BlobHeap.build blobsOfEachWidth).offsets[3]? = some offset ∧
        offset.toNat = 0x4088 := by
  have small : 0x4000 < Compressed.limit := by decide
  have short : ∀ blob ∈ blobsOfEachWidth, blob.length < Compressed.limit := by
    simp [blobsOfEachWidth, Compressed.limit, -List.reduceReplicate]
  have place : (BlobHeap.build (blobsOfEachWidth.take 3)).data.size = 0x4088 := by
    simp [blobsOfEachWidth, BlobHeap.size_build, BlobHeap.encode, Compressed.length_encode,
      -List.reduceReplicate]
  obtain ⟨numbers, -, -, -, blobs⟩ := numbers_and_blobs_read_back
  obtain ⟨h, opened, found⟩ := blobs blobsOfEachWidth short
  obtain ⟨last, offset, handed, value, -⟩ := found 3 [9] rfl
  rw [place] at last value
  exact ⟨small, (numbers 0x4000 small [0x5A] [0xFF]).1, short, h, opened, (found 0 [] rfl).1, last,
    offset, handed, value⟩

/-- Eight blobs of `n` zero bytes and one of a single byte. -/
def longBlobs (n : Nat) : List (List UInt8) := List.replicate 8 (List.replicate n 0) ++ [[9]]

section LongBlobs

variable {n : Nat}

theorem size_build_longBlobs (long : 0x4000 ≤ n) :
    (BlobHeap.build ((longBlobs n).take 8)).data.size = 1 + 8 * (4 + n) := by
  have front : (longBlobs n).take 8 = List.replicate 8 (List.replicate n 0) := rfl
  rw [front, BlobHeap.build, BuiltHeap.size_ofItems_replicate, BlobHeap.encode,
    List.length_append, List.length_replicate, Compressed.length_encode_of_long long]

/-- The first blob reaches over the position 25. -/
theorem zero_in_longBlobs (long : 0x4000 ≤ n) : (BlobHeap.build (longBlobs n)).data[25]? = some 0 := by
  have first : (longBlobs n)[0]? = some (List.replicate n 0) := rfl
  have whole : (BlobHeap.build (longBlobs n)).data.At (BlobHeap.encode (List.replicate n 0)) 1 :=
    BuiltHeap.at_ofItems first
  have zeros := whole.right 20 (by rw [List.length_replicate]; omega)
  rw [List.length_replicate, Compressed.length_encode_of_long long] at zeros
  refine zeros.trans ?_
  rw [List.getElem?_replicate, if_pos (by omega)]

end LongBlobs

/--
The position that is handed out for the last one of these blobs lies within the first one, and
what is found there depends on the byte at this position alone.
-/
theorem wrapped_offset_finds_another_blob :
    (∀ blob ∈ longBlobs 0x1FFFFFFF, blob.length < Compressed.limit) ∧
    (longBlobs 0x1FFFFFFF)[8]? = some [9] ∧
    (BlobHeap.build (longBlobs 0x1FFFFFFF)).offsets[8]? = some 25 ∧
    ∃ h, BlobHeap.ofBytes (BlobHeap.build (longBlobs 0x1FFFFFFF)).data = .ok h ∧
      h.get (25 : UInt32).toNat = .ok #[] ∧
      ∀ data : Bytes, data[25]? = h.data[25]? → (BlobHeap.mk data).get 25 = .ok #[] := by
  have last (n : Nat) : (longBlobs n)[8]? = some [9] := rfl
  have place : (BlobHeap.build ((longBlobs 0x1FFFFFFF).take 8)).offset = 25 := by
    rw [BuiltHeap.offset, size_build_longBlobs (by decide)]
    rfl
  have zero : (BlobHeap.build (longBlobs 0x1FFFFFFF)).data[25]? = some 0 :=
    zero_in_longBlobs (by decide)
  refine ⟨fun blob mem => ?_, last _, (BlobHeap.offsets_build (last _)).trans (congrArg some place),
    _, BlobHeap.opens_build _, BlobHeap.get_of_zero zero, fun data same => ?_⟩
  · rcases List.mem_append.1 mem with long | short
    · rw [List.eq_of_mem_replicate long, List.length_replicate]
      decide
    · rw [List.mem_singleton.1 short]
      decide
  · exact BlobHeap.get_of_zero (same.trans zero)

end ManagedImage
