/-
Where the code of a method body is. A header is one byte or a field of words with its
own size among the flags (`HeaderAt`); a body is read exactly if one of the two stands
at the position and the code behind it ends within the file (`MethodBody.read_eq_ok`).
A header that was written in front of code is such a header, whatever stands before it
and behind the code, and the body that is read has that code and no other byte
(`MethodBody.read_finds_code`).
-/
import Mathlib.Algebra.Group.Nat.Defs
import ManagedImage.Proofs.HeaderReads
import ManagedImage.Proofs.WrittenForms

namespace ManagedImage

open Reader

/-- A field in front of a sequence is there, and the rest goes on behind it with its number. -/
theorem Reader.field_bind_eq_ok {α β : Type} {n : Nat} {g : Nat → α} {f : α → Reader β}
    {c c' : Cursor} {v : β} :
    ((nat n >>= fun value => pure (g value)) >>= f) c = .ok v c' ↔
      c.pos + n ≤ c.data.size ∧
        f (g (c.data.leNat c.pos n)) { c with pos := c.pos + n } = .ok v c' := by
  by_cases fits : c.pos + n ≤ c.data.size
  · have field := bind_of_ok (f := fun value => (pure (g value) : Reader α)) (nat_of_fits fits)
    rw [bind_of_ok field, and_iff_right fits]
  · have field := bind_of_error (f := fun value => (pure (g value) : Reader α)) (nat_of_lacks fits)
    rw [bind_of_error field]
    exact ⟨nofun, fun h => absurd h.1 fits⟩

namespace MethodBody

/-- The body behind a tiny header. -/
def tinyBody (offset codeSize : Nat) : MethodBody where
  offset := offset
  codeSize := codeSize
  headerSize := 1
  maxStack := 8
  localsToken := 0
  flags := 0x02
  isFat := false

/-- The body behind a fat header of `words` words of four bytes. -/
def fatBody (offset words flags maxStack codeSize : Nat) (localsToken : UInt32) : MethodBody where
  offset := offset
  codeSize := codeSize
  headerSize := words * 4
  maxStack := maxStack
  localsToken := localsToken
  flags := flags &&& knownFlags
  isFat := true

/-- The body that the numbers at a position state, as the fields of a fat header. -/
def fatBodyAt (data : Bytes) (offset : Nat) : MethodBody :=
  fatBody offset (data.leNat offset 2 / 0x1000) (data.leNat offset 2 % 0x1000)
    (data.leNat (offset + 2) 2) (data.leNat (offset + 4) 4)
    (UInt32.ofNat (data.leNat (offset + 8) 4))

/-- The header of a body stands at a position. -/
inductive HeaderAt (data : Bytes) (offset : Nat) : MethodBody → Prop
  | tiny (inside : offset < data.size) (format : (data.getD offset 0).toNat % 4 = 2) :
    HeaderAt data offset (tinyBody offset ((data.getD offset 0).toNat / 4))
  | fat (inside : offset + fatSize ≤ data.size) (format : (data.getD offset 0).toNat % 4 = 3)
      (words : 3 ≤ data.leNat offset 2 / 0x1000) :
    HeaderAt data offset (fatBodyAt data offset)

variable {data : Bytes} {offset : Nat} {b : MethodBody}

theorem readFat_succeeds_iff {first : UInt8} : (∃ c', readFat first ⟨data, offset⟩ = .ok b c') ↔
    offset + fatSize ≤ data.size ∧ 3 ≤ data.leNat offset 2 / 0x1000 ∧
      b = fatBodyAt data offset := by
  have word : (UInt16.ofNat (data.leNat offset 2)).toNat = data.leNat offset 2 :=
    UInt16.toNat_ofNat_of_lt (data.leNat_lt offset 2)
  have stack : (UInt16.ofNat (data.leNat (offset + 2) 2)).toNat = data.leNat (offset + 2) 2 :=
    UInt16.toNat_ofNat_of_lt (data.leNat_lt _ 2)
  have size : (UInt32.ofNat (data.leNat (offset + 4) 4)).toNat = data.leNat (offset + 4) 4 :=
    UInt32.toNat_ofNat_of_lt' (data.leNat_lt _ 4)
  simp only [readFat, u16, u32, bind_of_ok (position_ok _), field_bind_eq_ok, word]
  by_cases words : 3 ≤ data.leNat offset 2 / 0x1000
  · rw [if_neg (by unfold fatSize; omega)]
    simp only [field_bind_eq_ok, pure_eq_ok, Nat.add_assoc, stack, size]
    constructor
    · rintro ⟨c', -, -, -, fits, rfl, -⟩
      exact ⟨fits, words, rfl⟩
    · rintro ⟨fits, -, rfl⟩
      unfold fatSize at fits
      exact ⟨_, by omega, by omega, by omega, fits, rfl, rfl⟩
  · rw [if_pos (by unfold fatSize; omega)]
    constructor
    · rintro ⟨_, _, h⟩
      cases h
    · intro h
      exact absurd h.2.1 words

/-- The low two bits of the first byte tell the format. -/
theorem readHeader_of_inside (inside : offset < data.size) : readHeader ⟨data, offset⟩ =
    if (data.getD offset 0).toNat % 4 = 2 then
      .ok (tinyBody offset ((data.getD offset 0).toNat / 4)) ⟨data, offset⟩
    else if (data.getD offset 0).toNat % 4 = 3 then readFat (data.getD offset 0) ⟨data, offset⟩
    else .error (.methodHeader offset (data.getD offset 0)) ⟨data, offset⟩ := by
  have format : ∀ n : UInt8, data.getD offset 0 % 4 = n ↔
      (data.getD offset 0).toNat % 4 = n.toNat := by
    intro n
    rw [← UInt8.toNat_inj, UInt8.toNat_mod]
    rfl
  have peeked := peek_u8_of_fits (c := ⟨data, offset⟩) inside
  rw [readHeader, bind_of_ok (position_ok _), bind_of_ok peeked]
  by_cases tiny : (data.getD offset 0).toNat % 4 = 2
  · rw [if_pos tiny, if_pos ((format 2).2 tiny)]
    rfl
  · rw [if_neg tiny, if_neg fun low => tiny ((format 2).1 low)]
    by_cases fat : (data.getD offset 0).toNat % 4 = 3
    · rw [if_pos fat, if_pos ((format 3).2 fat)]
    · rw [if_neg fat, if_neg fun low => fat ((format 3).1 low)]
      rfl

theorem HeaderAt.inside (header : HeaderAt data offset b) : offset < data.size := by
  cases header
  case tiny inside _ => exact inside
  case fat inside _ _ => unfold fatSize at inside; omega

theorem HeaderAt.place (header : HeaderAt data offset b) : b.offset = offset := by
  cases header <;> rfl

theorem readHeader_succeeds_iff :
    (∃ c', readHeader ⟨data, offset⟩ = .ok b c') ↔ HeaderAt data offset b := by
  by_cases inside : offset < data.size
  · rw [readHeader_of_inside inside]
    constructor
    · rintro ⟨c', h⟩
      by_cases tiny : (data.getD offset 0).toNat % 4 = 2
      · rw [if_pos tiny] at h
        cases h
        exact .tiny inside tiny
      rw [if_neg tiny] at h
      by_cases fat : (data.getD offset 0).toNat % 4 = 3
      · rw [if_pos fat] at h
        obtain ⟨fits, words, rfl⟩ := readFat_succeeds_iff.1 ⟨c', h⟩
        exact .fat fits fat words
      · rw [if_neg fat] at h
        cases h
    · rintro (⟨-, tiny⟩ | ⟨fits, fat, words⟩)
      · rw [if_pos tiny]
        exact ⟨_, rfl⟩
      · rw [if_neg (by omega), if_pos fat]
        exact readFat_succeeds_iff.2 ⟨fits, words, rfl⟩
  · have peeked := peek_u8_of_lacks (c := ⟨data, offset⟩) inside
    rw [readHeader, bind_of_ok (position_ok _), bind_of_error peeked]
    exact ⟨nofun, fun header => absurd header.inside inside⟩

theorem read_eq_ok : read data offset = .ok b ↔
    HeaderAt data offset b ∧ b.codeSpan.stop ≤ data.size := by
  rw [read, Except.bind_eq_ok, ← readHeader_succeeds_iff, ← runAt_eq_ok]
  constructor
  · rintro ⟨b', header, h⟩
    split at h
    case isTrue => cases h
    case isFalse fits => cases h; exact ⟨header, Nat.not_lt.1 fits⟩
  · rintro ⟨header, fits⟩
    refine ⟨b, header, ?_⟩
    rw [if_neg (Nat.not_lt.2 fits)]
    rfl

theorem read_succeeds_iff : (∃ b, read data offset = .ok b) ↔ offset < data.size ∧
    ((data.getD offset 0).toNat % 4 = 2 ∧
        offset + 1 + (data.getD offset 0).toNat / 4 ≤ data.size ∨
      (data.getD offset 0).toNat % 4 = 3 ∧ offset + 12 ≤ data.size ∧
        3 ≤ data.leNat offset 2 / 0x1000 ∧
        offset + 4 * (data.leNat offset 2 / 0x1000) + data.leNat (offset + 4) 4 ≤ data.size) := by
  simp only [read_eq_ok]
  constructor
  · rintro ⟨b, header, fits⟩
    refine ⟨header.inside, ?_⟩
    rcases header with ⟨-, tiny⟩ | ⟨inside, fat, words⟩
    · exact .inl ⟨tiny, fits⟩
    · rw [Nat.mul_comm]
      exact .inr ⟨fat, inside, words, fits⟩
  · rintro ⟨inside, ⟨tiny, fits⟩ | ⟨fat, header, words, fits⟩⟩
    · exact ⟨_, .tiny inside tiny, fits⟩
    · rw [Nat.mul_comm] at fits
      exact ⟨_, .fat header fat words, fits⟩

/-! ## Headers that were written -/

theorem headerAt_tinyHeader {n : Nat} (short : n < 64) (h : data.At (tinyHeader n) offset) :
    HeaderAt data offset (tinyBody offset n) := by
  have byte : (data.getD offset 0).toNat = n * 4 + 2 := by
    rw [Array.getD_eq_getD_getElem?, h.head, Option.getD_some, UInt8.toNat_ofNat']
    omega
  have size : n = (data.getD offset 0).toNat / 4 := by omega
  rw [size]
  exact .tiny (h.fits (List.cons_ne_nil _ _)) (by omega)

section Fat

variable {words flags codeSize : Nat} {maxStack : UInt16} {localsToken : UInt32}
  {extra : List UInt8}

theorem length_fatHeader (filled : 12 + extra.length = words * 4) :
    (fatHeader words flags maxStack.toNat codeSize localsToken.toNat extra).length = words * 4 := by
  simp only [fatHeader, List.length_append, Bytes.length_leBytes]
  exact filled

theorem headerAt_fatHeader (most : words ≤ 15) (small : flags < 0x1000) (format : flags % 4 = 3)
    (filled : 12 + extra.length = words * 4) (short : codeSize < 2 ^ 32)
    (h : data.At (fatHeader words flags maxStack.toNat codeSize localsToken.toNat extra) offset) :
    HeaderAt data offset (fatBody offset words flags maxStack.toNat codeSize localsToken) := by
  have written : (fatHeader words flags maxStack.toNat codeSize localsToken.toNat extra).length =
      words * 4 := length_fatHeader filled
  have inside := h.fits (List.cons_ne_nil _ _)
  rw [written, ← filled] at inside
  have word : data.leNat offset 2 = words * 0x1000 + flags :=
    h.left.left.left.left.leNat (show _ < 65536 by omega)
  have stack : data.leNat (offset + 2) 2 = maxStack.toNat :=
    h.left.left.left.right.leNat maxStack.toNat_lt
  have size : data.leNat (offset + 4) 4 = codeSize := by
    simpa using h.left.left.right.leNat short
  have locals : data.leNat (offset + 8) 4 = localsToken.toNat := by
    simpa using h.left.right.leNat localsToken.toNat_lt
  have first : (data.getD offset 0).toNat % 4 = 3 := by
    rw [Bytes.leNat_succ] at word
    omega
  have high : (words * 0x1000 + flags) / 0x1000 = words := by omega
  have low : (words * 0x1000 + flags) % 0x1000 = flags := by omega
  have header := HeaderAt.fat (show offset + 12 ≤ data.size by omega) first
    (by rw [word, high]; omega)
  rwa [fatBodyAt, word, stack, size, locals, high, low, UInt32.ofNat_toNat] at header

end Fat

/-- A body is read at a position, and the range of its code in the file holds the code. -/
def HasCode (b : MethodBody) (data : Bytes) (offset : Nat) (code : List UInt8) : Prop :=
  read data offset = .ok b ∧ data.extract b.codeSpan.start b.codeSpan.stop = code.toArray

theorem hasCode_of_headerAt {header code : List UInt8} (stands : HeaderAt data offset b)
    (width : b.headerSize = header.length) (size : b.codeSize = code.length)
    (nonempty : header ≠ []) (h : data.At (header ++ code) offset) :
    b.HasCode data offset code := by
  have fits := h.fits (List.append_ne_nil_of_left_ne_nil nonempty code)
  rw [List.length_append, ← Nat.add_assoc] at fits
  rw [HasCode, read_eq_ok, codeSpan, stands.place, width, size]
  exact ⟨⟨stands, fits⟩, h.right.extract fits⟩

/--
A body is read exactly if a tiny or a fat header is there with its code, which is then
behind the header; so every code is found behind each header that can be written for
it, at any position and in front of any bytes.
-/
theorem read_finds_code :
    (∀ (data : Bytes) (offset : Nat), (∃ b, read data offset = .ok b) ↔ offset < data.size ∧
      ((data.getD offset 0).toNat % 4 = 2 ∧
          offset + 1 + (data.getD offset 0).toNat / 4 ≤ data.size ∨
        (data.getD offset 0).toNat % 4 = 3 ∧ offset + 12 ≤ data.size ∧
          3 ≤ data.leNat offset 2 / 0x1000 ∧
          offset + 4 * (data.leNat offset 2 / 0x1000) + data.leNat (offset + 4) 4 ≤ data.size)) ∧
    (∀ data offset b, read data offset = .ok b → b.codeSpan.start = offset + b.headerSize ∧
      b.codeSpan.length = b.codeSize ∧ b.codeSpan.stop ≤ data.size) ∧
    (∀ p s c : List UInt8, c.length < 64 →
      (tinyBody p.length c.length).HasCode (p ++ tinyHeader c.length ++ c ++ s).toArray
        p.length c) ∧
    ∀ (p s c extra : List UInt8) (words flags : Nat) (maxStack : UInt16) (localsToken : UInt32),
      3 ≤ words → words ≤ 15 → 12 + extra.length = words * 4 → flags < 0x1000 → flags % 4 = 3 →
      c.length < 2 ^ 32 →
      (fatBody p.length words flags maxStack.toNat c.length localsToken).HasCode
        (p ++ fatHeader words flags maxStack.toNat c.length localsToken.toNat extra ++ c ++
          s).toArray p.length c := by
  refine ⟨fun _ _ => read_succeeds_iff, fun data offset b h => ?_, fun p s c short => ?_, ?_⟩
  · obtain ⟨header, fits⟩ := read_eq_ok.1 h
    exact ⟨congrArg (· + b.headerSize) header.place, Nat.add_sub_cancel_left .., fits⟩
  · have there := Bytes.at_append p (tinyHeader c.length ++ c) s
    rw [← List.append_assoc] at there
    exact hasCode_of_headerAt (headerAt_tinyHeader short there.left) rfl rfl
      (List.cons_ne_nil _ _) there
  · intro p s c extra words flags maxStack localsToken _ most filled small format short
    have there := Bytes.at_append p
      (fatHeader words flags maxStack.toNat c.length localsToken.toNat extra ++ c) s
    rw [← List.append_assoc] at there
    exact hasCode_of_headerAt (headerAt_fatHeader most small format filled short there.left)
      (length_fatHeader filled).symm rfl (List.cons_ne_nil _ _) there

/--
Code of one byte is found behind a header of four words with other bytes around it, and
no code behind a tiny header at the end of a file; a header of two words is refused.
-/
theorem read_finds_code_fourWords :
    (fatBody 2 4 0x03 8 1 0).HasCode
      #[0xFF, 0xFF, 0x03, 0x40, 8, 0, 1, 0, 0, 0, 0, 0, 0, 0, 0, 0, 0, 0, 0x2A, 0x00] 2 [0x2A] ∧
    (tinyBody 1 0).HasCode #[0xFF, 0x02] 1 [] ∧
    ¬ ∃ b, read #[0x03, 0x20, 8, 0, 1, 0, 0, 0, 0, 0, 0, 0, 0x2A] 0 = .ok b := by
  obtain ⟨succeeds, -, tiny, fat⟩ := read_finds_code
  refine ⟨?_, tiny [0xFF] [] [] (by decide), ?_⟩
  · exact fat [0xFF, 0xFF] [0x00] [0x2A] [0, 0, 0, 0] 4 0x03 8 0 (by decide) (by decide) rfl
      (by decide) rfl (by decide)
  · rw [succeeds]
    decide

end MethodBody

end ManagedImage
