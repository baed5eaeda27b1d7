/-
Metadata tokens. The top byte of a token names a metadata table, or the heap of
user strings; the other 24 bits are a row of that table, or an offset into that
heap.

Main statements: the parts of a token are those of its number above and below
`2 ^ 24` (`toNat_selector`, `toNat_index`).
-/
import ManagedImage.Text.Hex

namespace ManagedImage

/-- A reference from code or from a table row. -/
structure Token where
  value : UInt32
deriving DecidableEq, Repr

namespace Token

/-- The token of a selector and an index, of which the low 24 bits are kept. -/
def ofParts (selector : UInt8) (index : UInt32) : Token :=
  ⟨(selector.toUInt32 <<< 24) ||| (index &&& 0x00FFFFFF)⟩

/-- The top byte. -/
def selector (t : Token) : UInt8 := (t.value >>> 24).toUInt8

/-- The low 24 bits: a row number, or an offset for a user string. -/
def index (t : Token) : UInt32 := t.value &&& 0x00FFFFFF

/-- The selector of the heap of user strings. -/
def userStringSelector : UInt8 := 0x70

/-- Whether the token refers into the heap of user strings. -/
def isUserString (t : Token) : Bool := t.selector = userStringSelector

/-- The token that refers to nothing. -/
def isNull (t : Token) : Bool := t.value = 0

/-- The token in hexadecimal. -/
def text (t : Token) : String := Hex.marked 8 t.value.toNat

/-- The token with its parts. -/
def describe (t : Token) : String :=
  let selector := Hex.marked 2 t.selector.toNat
  s!"Token({t.text}, table: {selector}, row: {t.index})"

theorem toNat_index (t : Token) : t.index.toNat = t.value.toNat % 0x1000000 := by
  simpa [index] using Nat.and_two_pow_sub_one_eq_mod t.value.toNat 24

theorem toNat_selector (t : Token) : t.selector.toNat = t.value.toNat / 0x1000000 := by
  have bound := t.value.toNat_lt
  simp [selector, Nat.shiftRight_eq_div_pow]
  omega

end Token

end ManagedImage
