/-
Heaps that are built entry by entry. An entry is put behind those that are there
already, and the position at which it was put is handed out in 32 bits: it is the
true one only as long as fewer than `2 ^ 32` bytes stand in front of the entry
(`toNat_offset`). Nothing that was put into a heap is moved or changed later.

Main statements: the bytes of a heap that was built (`data_ofItems`) and the
positions that were handed out (`offsets_ofItems`).
-/
import ManagedImage.Bytes

namespace ManagedImage

/-- A heap under construction, and the positions that were handed out, in order. -/
structure BuiltHeap where
  data : Bytes
  offsets : List UInt32
deriving DecidableEq, Repr

namespace BuiltHeap

variable {α : Type} {form : α → List UInt8} {items : List α} {item : α} {k : Nat}

/-- A heap with nothing in it but the zero byte of the empty entry. -/
def empty : BuiltHeap := ⟨#[0], []⟩

/-- The position of the next entry, in 32 bits. -/
def offset (h : BuiltHeap) : UInt32 := UInt32.ofNat h.data.size

/-- Puts an entry behind the others. -/
def append (h : BuiltHeap) (entry : List UInt8) : BuiltHeap :=
  ⟨h.data ++ entry, h.offsets ++ [h.offset]⟩

/-- Puts the forms of items behind the others, one after the other. -/
def appendAll (form : α → List UInt8) (h : BuiltHeap) (items : List α) : BuiltHeap :=
  items.foldl (fun h item => h.append (form item)) h

/-- Puts zero bytes behind the entries. -/
def pad (h : BuiltHeap) (count : Nat) : BuiltHeap :=
  { h with data := h.data ++ List.replicate count (0 : UInt8) }

/-- The heap of a list of items, each in its form. -/
def ofItems (form : α → List UInt8) (items : List α) : BuiltHeap := empty.appendAll form items

theorem toNat_offset (h : BuiltHeap) : h.offset.toNat = h.data.size % UInt32.size :=
  UInt32.toNat_ofNat'

theorem toNat_offset_of_lt {h : BuiltHeap} (small : h.data.size < UInt32.size) :
    h.offset.toNat = h.data.size := by
  rw [toNat_offset, Nat.mod_eq_of_lt small]

@[simp] theorem pad_zero (h : BuiltHeap) : h.pad 0 = h := by
  cases h
  simp [pad]

theorem getElem?_offsets_append (h : BuiltHeap) (entry : List UInt8) :
    (h.append entry).offsets[h.offsets.length]? = some h.offset :=
  List.getElem?_concat_length

theorem appendAll_cons (form : α → List UInt8) (h : BuiltHeap) (item : α) (later : List α) :
    h.appendAll form (item :: later) = (h.append (form item)).appendAll form later := rfl

theorem data_appendAll (form : α → List UInt8) (h : BuiltHeap) (items : List α) :
    (h.appendAll form items).data.toList = h.data.toList ++ items.flatMap form := by
  induction items generalizing h with
  | nil => exact (List.append_nil _).symm
  | cons item later ih =>
    rw [appendAll_cons, ih, append, Array.toList_appendList, List.append_assoc, List.flatMap_cons]

theorem offsets_appendAll (form : α → List UInt8) (h : BuiltHeap) (items : List α) :
    h.offsets <+: (h.appendAll form items).offsets := by
  induction items generalizing h with
  | nil => exact List.prefix_rfl
  | cons item later ih => exact (List.prefix_append ..).trans (ih (h.append (form item)))

theorem length_offsets_appendAll (form : α → List UInt8) (h : BuiltHeap) (items : List α) :
    (h.appendAll form items).offsets.length = h.offsets.length + items.length := by
  induction items generalizing h with
  | nil => rfl
  | cons item later ih =>
    rw [appendAll_cons, ih, append, List.length_append, List.length_singleton, List.length_cons,
      Nat.add_assoc, Nat.add_comm 1]

theorem data_ofItems (form : α → List UInt8) (items : List α) :
    (ofItems form items).data = (0 :: items.flatMap form).toArray :=
  Array.toList_inj.1 (data_appendAll form empty items)

theorem size_ofItems_replicate (form : α → List UInt8) (count : Nat) (item : α) :
    (ofItems form (List.replicate count item)).data.size = 1 + count * (form item).length := by
  rw [data_ofItems, List.size_toArray, List.length_cons, List.flatMap_replicate,
    List.length_flatten, List.map_replicate, List.sum_replicate_nat, Nat.add_comm]

/-- An item is put behind those in front of it, and those that come later are put behind it. -/
theorem ofItems_of_getElem? (there : items[k]? = some item) :
    ofItems form items =
      ((ofItems form (items.take k)).append (form item)).appendAll form (items.drop (k + 1)) := by
  obtain ⟨inside, rfl⟩ := List.getElem?_eq_some_iff.1 there
  unfold ofItems appendAll
  rw [← List.foldl_cons, List.getElem_cons_drop, ← List.foldl_append, List.take_append_drop]

/-- The position that was handed out for an item counts the bytes in front of it. -/
theorem offsets_ofItems (there : items[k]? = some item) :
    (ofItems form items).offsets[k]? = some (ofItems form (items.take k)).offset := by
  have count : (ofItems form (items.take k)).offsets.length = k := by
    have inside := (List.getElem?_eq_some_iff.1 there).1
    rw [ofItems, length_offsets_appendAll, List.length_take_of_le (Nat.le_of_lt inside)]
    exact Nat.zero_add k
  obtain ⟨others, kept⟩ := offsets_appendAll form
    ((ofItems form (items.take k)).append (form item)) (items.drop (k + 1))
  have handed := getElem?_offsets_append (ofItems form (items.take k)) (form item)
  rw [count] at handed
  rw [ofItems_of_getElem? there, ← kept,
    List.getElem?_append_left (List.getElem?_eq_some_iff.1 handed).1, handed]

end BuiltHeap

end ManagedImage
