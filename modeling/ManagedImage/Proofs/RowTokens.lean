/-
Tokens of rows. A token has 24 bits for the number of a row. `TableId.token` puts the
number there as it is, so what a larger number has above these bits is mixed into the
selector (`TableId.toNat_selector_token`), and the token refers to a row of another
table. The numbers come from columns and row counts of 32 bits and nothing bounds them
on the way: a token identifies its row exactly if the number is below `2 ^ 24`
(`TableId.identifies_token_iff`). That is so for each reference from a column of two
bytes (`CodedIndex.row_lt_of_narrow`), and for all rows of a table exactly if it has
fewer than `2 ^ 24` (`Table.identifies_rows_iff`).
-/
import ManagedImage.Proofs.CodedIndexes

namespace ManagedImage

open Reader

/-- The parts of a token are those of a row of a table. -/
def Token.Identifies (token : Token) (t : TableId) (row : Nat) : Prop :=
  token.selector.toNat = t.toNat ∧ token.index.toNat = row

namespace TableId

variable {t : TableId} {row : UInt32}

theorem toNat_token : (t.token row).value.toNat = t.toNat <<< 24 ||| row.toNat := by
  have few := t.toNat_lt
  have byte : t.selector.toNat = t.toNat :=
    UInt8.toNat_ofNat_of_lt' (Nat.lt_trans few (by decide))
  have bits : t.toNat <<< 24 < 2 ^ 32 := by rw [Nat.shiftLeft_eq]; omega
  simp only [token, tokenBits, UInt32.toNat_or, UInt32.toNat_shiftLeft, UInt8.toNat_toUInt32, byte]
  exact congrArg (· ||| row.toNat) (Nat.mod_eq_of_lt bits)

/-- The upper bits of the row number are set in the selector. -/
theorem toNat_selector_token : (t.token row).selector.toNat = t.toNat ||| row.toNat >>> 24 := by
  rw [Token.toNat_selector, toNat_token, ← Nat.shiftRight_eq_div_pow _ 24, Nat.shiftRight_or_distrib,
    Nat.shiftLeft_shiftRight]

theorem toNat_index_token : (t.token row).index.toNat = row.toNat % 2 ^ 24 := by
  have low : (t.toNat <<< 24) % 2 ^ 24 = 0 := by rw [Nat.shiftLeft_eq]; exact Nat.mul_mod_left ..
  rw [Token.toNat_index, toNat_token, Nat.or_mod_two_pow (n := 24), low, Nat.zero_or]

/-- The token of a row identifies it exactly if the row number has no more than 24 bits. -/
theorem identifies_token_iff : (t.token row).Identifies t row.toNat ↔ row.toNat < 2 ^ 24 := by
  rw [Token.Identifies, toNat_selector_token, toNat_index_token]
  constructor
  · rintro ⟨-, index⟩
    omega
  · intro small
    rw [Nat.shiftRight_eq_div_pow, Nat.div_eq_of_lt small, Nat.or_zero]
    exact ⟨rfl, Nat.mod_eq_of_lt small⟩

end TableId

namespace CodedIndex

variable {s : Schema} {k : CodedKind} {data : Bytes} {pos : Nat} {i : CodedIndex} {c' : Cursor}

theorem row_lt_of_narrow (narrow : s.coded k = 2)
    (read : CodedIndex.read s k ⟨data, pos⟩ = .ok i c') : i.row.toNat < 2 ^ 16 := by
  obtain ⟨-, -, split⟩ := read_eq_ok.1 read
  have value : data.leNat pos 2 < 2 ^ 16 := Bytes.leNat_lt data pos 2
  have rest := (decode_eq_ok.1 split).2
  rw [narrow, UInt32.toNat_ofNat_of_lt' (Nat.lt_trans value (by decide))] at rest
  rw [rest]
  exact Nat.lt_of_le_of_lt (Nat.div_le_self ..) value

end CodedIndex

section Rows

variable {γ : Type} [Columns γ]

theorem Row.identifies_token_iff {row : Row γ} (small : row.rid < 2 ^ 32) :
    row.token.Identifies (Columns.table γ) row.rid ↔ row.rid < 2 ^ 24 := by
  have number : (UInt32.ofNat row.rid).toNat = row.rid := UInt32.toNat_ofNat_of_lt' small
  have law := @TableId.identifies_token_iff (Columns.table γ) (UInt32.ofNat row.rid)
  rwa [number] at law

variable [LawfulColumns γ] {s : Schema} {data : Bytes} {count : UInt32} {t : Table γ}

/-- The rows of a table that was read are numbered from one to their count. -/
theorem Table.exists_row_iff (read : (Table.read γ s count.toNat).run data = .ok t) (rid : Nat) :
    (∃ row ∈ t.rows, row.rid = rid) ↔ 1 ≤ rid ∧ rid ≤ count.toNat := by
  obtain ⟨size, rows⟩ := Table.read_eq_ok read
  have listed : (∃ row ∈ t.rows, row.rid = rid) ↔ rid ∈ t.rows.toList.map Row.rid := by simp
  rw [listed, rows.rids, List.mem_range'_1, Array.length_toList, size]
  omega

theorem Table.identifies_row_iff (read : (Table.read γ s count.toNat).run data = .ok t)
    {row : Row γ} (mem : row ∈ t.rows) :
    row.token.Identifies (Columns.table γ) row.rid ↔ row.rid < 2 ^ 24 := by
  have last := ((exists_row_iff read row.rid).1 ⟨row, mem, rfl⟩).2
  exact Row.identifies_token_iff (Nat.lt_of_le_of_lt last count.toNat_lt)

/-- The tokens of a table identify all of its rows exactly if the last row number fits. -/
theorem Table.identifies_rows_iff (read : (Table.read γ s count.toNat).run data = .ok t) :
    (∀ row ∈ t.rows, row.token.Identifies (Columns.table γ) row.rid) ↔ count.toNat < 2 ^ 24 := by
  constructor
  · intro all
    refine Nat.lt_of_not_le fun many => ?_
    obtain ⟨row, mem, rid⟩ := (exists_row_iff read (2 ^ 24)).2 ⟨by decide, many⟩
    have small := (identifies_row_iff read mem).1 (all row mem)
    omega
  · intro few row mem
    have last := ((exists_row_iff read row.rid).1 ⟨row, mem, rfl⟩).2
    exact (identifies_row_iff read mem).2 (Nat.lt_of_le_of_lt last few)

end Rows

/--
**Which tokens identify their target.** The token of a reference that was read
identifies its table and row exactly if the row number is below `2 ^ 24`, which
it always is in a column of two bytes. So does the token of a row of a table that
was read, and all of them do exactly if the table has fewer than `2 ^ 24` rows.
-/
theorem tokens_identify_iff (s : Schema) (data : Bytes) :
    (∀ k pos i c', CodedIndex.read s k ⟨data, pos⟩ = .ok i c' →
      (i.token.Identifies i.table i.row.toNat ↔ i.row.toNat < 2 ^ 24) ∧
      (s.coded k = 2 → i.token.Identifies i.table i.row.toNat)) ∧
    ∀ (γ : Type) [Columns γ] [LawfulColumns γ] (count : UInt32) (t : Table γ),
      (Table.read γ s count.toNat).run data = .ok t →
        (∀ row ∈ t.rows,
          (row.token.Identifies (Columns.table γ) row.rid ↔ row.rid < 2 ^ 24)) ∧
        ((∀ row ∈ t.rows, row.token.Identifies (Columns.table γ) row.rid) ↔
          count.toNat < 2 ^ 24) := by
  constructor
  · intro k pos i c' read
    refine ⟨TableId.identifies_token_iff, fun narrow => ?_⟩
    have small := CodedIndex.row_lt_of_narrow narrow read
    exact TableId.identifies_token_iff.2 (Nat.lt_trans small (by decide))
  · intro γ _ _ count t read
    exact ⟨fun _ => Table.identifies_row_iff read, Table.identifies_rows_iff read⟩

/-- A schema with so many types that the base of a type takes four bytes. -/
def manyTypes : Schema := .ofCounts 0 ((Array.replicate 45 0).set! 2 0x4000)

/-- The tag 0, that of a type definition, below row `0x1000000`. -/
def farBase : Bytes := #[0, 0, 0, 4]

theorem read_farBase : CodedIndex.read manyTypes .typeDefOrRef ⟨farBase, 0⟩ =
    .ok ⟨.typeDef, 0x1000000⟩ ⟨farBase, 4⟩ := by rfl

/-- The token of this base refers to row 0 of another table. -/
theorem farBase_token :
    CodedIndex.read manyTypes .typeDefOrRef ⟨farBase, 0⟩ =
      .ok ⟨.typeDef, 0x1000000⟩ ⟨farBase, 4⟩ ∧
    (CodedIndex.mk .typeDef 0x1000000).token.selector.toNat = TableId.fieldPtr.toNat ∧
    (CodedIndex.mk .typeDef 0x1000000).token.index.toNat = 0 :=
  ⟨read_farBase, by decide, by decide⟩

/--
A base in two bytes and the only parameter of a table are identified by their
tokens, the base in four bytes is not.
-/
theorem tokens_identify_iff_farBase :
    (CodedIndex.mk .typeRef 1).token.Identifies .typeRef 1 ∧
    ¬ (CodedIndex.mk .typeDef 0x1000000).token.Identifies .typeDef 0x1000000 ∧
    ∃ t, (Table.read ParamColumns (.ofCounts 0 #[]) 1).run #[0, 0, 1, 0, 7, 0] = .ok t ∧
      ∀ row ∈ t.rows, row.token.Identifies .param row.rid := by
  have base : CodedIndex.read (.ofCounts 0 #[]) .typeDefOrRef ⟨#[5, 0], 0⟩ =
      .ok ⟨.typeRef, 1⟩ ⟨#[5, 0], 2⟩ := by rfl
  have table : (Table.read ParamColumns (.ofCounts 0 #[]) 1).run #[0, 0, 1, 0, 7, 0] =
      .ok ⟨#[⟨1, 0, ⟨0, 1, 7⟩⟩], 6⟩ := by rfl
  refine ⟨((tokens_identify_iff _ _).1 _ _ _ _ base).2 (by decide +kernel), ?_, _, table,
    ((tokens_identify_iff _ _).2 ParamColumns 1 _ table).2.2 (by decide)⟩
  intro named
  exact absurd (((tokens_identify_iff _ _).1 _ _ _ _ read_farBase).1.1 named) (by decide)

end ManagedImage
