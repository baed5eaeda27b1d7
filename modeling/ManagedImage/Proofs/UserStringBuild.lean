/-
Heaps of user strings that were built from a list of strings. The walk of such
a heap gives the strings back, each where it was put, between the empty entry
and one empty entry for each byte of padding (`walk_build`). The position that
is handed out for a string is the one where it was put modulo `2 ^ 32`, so it is
another one behind `2 ^ 32` bytes (`wrapped_offset_finds_another_string`).
-/
import ManagedImage.Proofs.UserStringTiling
import ManagedImage.Proofs.WrittenForms

namespace ManagedImage

open Reader

namespace UserString

/-- The entry of a string that was put at a position. -/
def ofUnits (units : List UInt16) (offset : Nat) : UserString where
  offset := offset
  prefixSize := (Compressed.encode (2 * units.length + 1)).length
  length := 2 * units.length + 1
  payload := (Utf16.bytesOfUnits units).toArray
  flag := some (flagOf units)

theorem stop_ofUnits (units : List UInt16) (offset : Nat) :
    (ofUnits units offset).stop = offset + (encode units).length := by
  simp only [stop, size, ofUnits, encode, List.length_append, Utf16.length_bytesOfUnits,
    List.length_singleton]
  omega

theorem units_ofUnits (units : List UInt16) (offset : Nat) : (ofUnits units offset).units = units :=
  Utf16.unitsOfBytes_bytesOfUnits units

theorem text_ofUnits (text : String) (offset : Nat) :
    (ofUnits (Utf16.encode text.toList) offset).text = text := by
  rw [UserString.text, units_ofUnits, Utf16.decode_encode, String.ofList_toList]

end UserString

namespace UserStringHeap

variable {h : UserStringHeap} {offset : Nat} {units : List UInt16}

theorem get_of_encode (short : 2 * units.length + 1 < Compressed.limit)
    (there : h.data.At (UserString.encode units) offset) :
    h.get offset = .ok (.ofUnits units offset) := by
  have ends := there.fits (by simp [UserString.encode])
  obtain ⟨front, flag⟩ := Bytes.At.append.1 there
  obtain ⟨form, payload⟩ := Bytes.At.append.1 front
  have number := Compressed.read_encode short (c := ⟨h.data, offset⟩) form
  simp only [UserString.encode, List.length_append, Utf16.length_bytesOfUnits,
    List.length_singleton] at ends flag
  have payload := payload.extract (by rw [Utf16.length_bytesOfUnits]; omega)
  rw [Utf16.length_bytesOfUnits] at payload
  have flag := flag.head
  rw [get_of_inside (by omega), UserString.runAt_read, outcome_of_ok number]
  unfold UserString.ofUnits
  generalize (Compressed.encode (2 * units.length + 1)).length = width at ends payload flag ⊢
  have flag : h.data.getD (offset + width + 2 * units.length) 0 = UserString.flagOf units := by
    rw [Array.getD_eq_getD_getElem?, Nat.add_assoc, flag, Option.getD_some]
  simp only [Except.bind, UserString.ofLength, Nat.add_sub_cancel]
  rw [if_neg (by omega), if_neg (by omega), if_neg (by omega), if_neg (by omega), payload, flag,
    Nat.add_sub_cancel_left]

/-- The entries of strings that were put one behind the other. -/
def entriesFrom : Nat → List (List UInt16) → List UserString
  | _, [] => []
  | offset, units :: later =>
    .ofUnits units offset :: entriesFrom (offset + (UserString.encode units).length) later

theorem length_entriesFrom (offset : Nat) (strings : List (List UInt16)) :
    (entriesFrom offset strings).length = strings.length := by
  induction strings generalizing offset with
  | nil => rfl
  | cons units later ih => rw [entriesFrom, List.length_cons, ih, List.length_cons]

theorem data_build (strings : List (List UInt16)) (padding : Nat) :
    (build strings padding).data =
      (0 :: strings.flatMap UserString.encode ++ List.replicate padding 0).toArray := by
  rw [build, BuiltHeap.pad, BuiltHeap.data_ofItems]
  simp

theorem size_build (strings : List (List UInt16)) (padding : Nat) :
    (build strings padding).data.size =
      1 + (strings.flatMap UserString.encode).length + padding := by
  rw [data_build, List.size_toArray, List.length_append, List.length_cons, List.length_replicate,
    Nat.add_comm 1]

theorem opens_build (strings : List (List UInt16)) (padding : Nat) :
    ofBytes (build strings padding).data = .ok ⟨(build strings padding).data⟩ := by
  refine if_pos ?_
  rw [data_build]
  rfl

theorem build_zero (strings : List (List UInt16)) :
    build strings 0 = .ofItems UserString.encode strings := BuiltHeap.pad_zero _

/-- Padding moves no string. -/
theorem offsets_build {strings : List (List UInt16)} {k : Nat} (padding : Nat)
    (there : strings[k]? = some units) :
    (build strings padding).offsets[k]? = some (build (strings.take k) 0).offset := by
  rw [build_zero]
  exact BuiltHeap.offsets_ofItems there

/-- The entry of a string stands behind those of the strings in front of it. -/
theorem getElem?_entriesFrom {offset k : Nat} {strings : List (List UInt16)}
    (there : strings[k]? = some units) :
    (entriesFrom offset strings)[k]? =
      some (.ofUnits units (offset + ((strings.take k).flatMap UserString.encode).length)) := by
  induction strings generalizing offset k with
  | nil => cases there
  | cons first later ih =>
    cases k with
    | zero => cases there; rfl
    | succ k =>
      rw [List.getElem?_cons_succ] at there
      rw [entriesFrom, List.getElem?_cons_succ, ih there, List.take_succ_cons, List.flatMap_cons,
        List.length_append, Nat.add_assoc]

/-- Zero bytes up to the end of the heap are empty entries. -/
theorem walks_of_zeros {n : Nat} (zeros : h.data.At (List.replicate n 0) offset)
    (ends : offset + n = h.data.size) :
    Walks h offset ((List.range' offset n).map .blank) none := by
  induction n generalizing offset with
  | zero => exact .finish (by omega)
  | succ n ih =>
    have found := get_of_zero zeros.head
    exact .step (by omega) found (@ih (offset + 1) zeros.tail (by omega))

/-- Strings that were put one behind the other, and zero bytes behind them, are walked over. -/
theorem walks_of_encode {n : Nat} {strings : List (List UInt16)}
    (short : ∀ units ∈ strings, 2 * units.length + 1 < Compressed.limit)
    (there : h.data.At (strings.flatMap UserString.encode ++ List.replicate n 0) offset)
    (ends : offset + (strings.flatMap UserString.encode).length + n = h.data.size) :
    Walks h offset
      (entriesFrom offset strings ++
        (List.range' (offset + (strings.flatMap UserString.encode).length) n).map .blank) none := by
  induction strings generalizing offset with
  | nil => exact walks_of_zeros there ends
  | cons units later ih =>
    rw [List.flatMap_cons, List.append_assoc] at there
    rw [List.flatMap_cons, List.length_append, ← Nat.add_assoc] at ends ⊢
    have found := get_of_encode (short units List.mem_cons_self) there.left
    have inside : offset < h.data.size := by
      have forward := lt_stop found
      rw [UserString.stop_ofUnits] at forward
      omega
    refine .step inside found ?_
    rw [UserString.stop_ofUnits]
    exact ih (fun units mem => short units (List.mem_cons_of_mem _ mem)) there.right ends

/-- The entry of a string that was put at a position, and what can be read of it. -/
structure Stores (h : UserStringHeap) (s : UserString) (units : List UInt16) (offset : Nat) :
    Prop where
  offset_eq : s.offset = offset
  prefixSize_eq : s.prefixSize =
    if 2 * units.length + 1 < 0x80 then 1 else if 2 * units.length + 1 < 0x4000 then 2 else 4
  length_eq : s.length = 2 * units.length + 1
  units_eq : s.units = units
  flag_eq : s.flag = some (UserString.flagOf units)
  text_eq : ∀ text : String, units = Utf16.encode text.toList → s.text = text
  found : h.get offset = .ok s

theorem stores_ofUnits (found : h.get offset = .ok (.ofUnits units offset)) :
    h.Stores (.ofUnits units offset) units offset where
  offset_eq := rfl
  prefixSize_eq := Compressed.length_encode _
  length_eq := rfl
  units_eq := UserString.units_ofUnits units offset
  flag_eq := rfl
  text_eq := by
    rintro text rfl
    exact UserString.text_ofUnits text offset
  found := found

/--
**The walk of a heap that was built gives back what it was built from**: the
empty entry at the start, then one entry for each string, in order and where the
string was put, and then one empty entry for each byte of padding. The position
that was handed out for a string is that of its entry if fewer than `2 ^ 32`
bytes stand in front of it, and otherwise it is equal to it modulo `2 ^ 32`.
-/
theorem walk_build (strings : List (List UInt16)) (padding : Nat)
    (short : ∀ units ∈ strings, 2 * units.length + 1 < Compressed.limit) :
    ∃ h, ofBytes (build strings padding).data = .ok h ∧ h.walk.fault = none ∧
      ∃ entries, h.walk.done =
          .blank 0 :: entries ++ (List.range' (build strings 0).data.size padding).map .blank ∧
        entries.length = strings.length ∧
        ∀ k units, strings[k]? = some units →
          let place := (build (strings.take k) 0).data.size
          ∃ s offset, entries[k]? = some s ∧ h.Stores s units place ∧
            (build strings padding).offsets[k]? = some offset ∧ offset.toNat = place % UInt32.size ∧
            (place < UInt32.size → s.offset = offset.toNat ∧ h.get offset.toNat = .ok s) := by
  have first : (build strings padding).data[0]? = some 0 := by
    rw [data_build]
    rfl
  have there : (build strings padding).data.At
      (strings.flatMap UserString.encode ++ List.replicate padding 0) 1 := by
    rw [data_build]
    exact (Bytes.at_toArray (0 :: _)).tail
  have size := size_build strings padding
  have walked := walks_of_encode (h := ⟨(build strings padding).data⟩) short there size.symm
  have whole := Walks.step (Array.getElem?_eq_some_iff.1 first).1 (get_of_zero first) walked
  obtain ⟨done, fault⟩ := (walk_walks ⟨(build strings padding).data⟩).det whole
  refine ⟨_, opens_build .., fault, entriesFrom 1 strings, ?_, length_entriesFrom .., ?_⟩
  · rw [done, size_build]
    rfl
  · intro k units known
    have entry := @getElem?_entriesFrom _ 1 _ _ known
    have mem := List.mem_of_getElem? entry
    have place : 1 + ((strings.take k).flatMap UserString.encode).length =
        (build (strings.take k) 0).data.size := (size_build _ 0).symm
    rw [place] at entry mem
    have found := get_of_mem_walk (h := ⟨(build strings padding).data⟩)
      (s := .ofUnits units (build (strings.take k) 0).data.size) (by
        rw [done]
        exact List.mem_cons_of_mem _ (List.mem_append_left _ mem))
    refine ⟨_, _, entry, stores_ofUnits found, offsets_build padding known,
      BuiltHeap.toNat_offset _, fun small => ?_⟩
    rw [BuiltHeap.toNat_offset_of_lt small]
    exact ⟨rfl, found⟩

/-- Strings of each width of length, among them one of no units and one with a surrogate pair. -/
def stringsOfEachWidth : List (List UInt16) :=
  [[], Utf16.encode ['H', '😀'], List.replicate 64 0x27, List.replicate 0x2000 0x41]

theorem walk_build_each_width :
    (∀ units ∈ stringsOfEachWidth, 2 * units.length + 1 < Compressed.limit) ∧
      ∃ h, ofBytes (build stringsOfEachWidth 3).data = .ok h ∧ h.walk.fault = none ∧
        h.walk.done.length = 8 ∧
        ∃ s ∈ h.walk.done, s.prefixSize = 4 ∧ s.units = List.replicate 0x2000 0x41 ∧
          ∃ offset, (build stringsOfEachWidth 3).offsets[3]? = some offset ∧
            offset.toNat = 0x8E ∧ h.get offset.toNat = .ok s := by
  have short : ∀ units ∈ stringsOfEachWidth, 2 * units.length + 1 < Compressed.limit := by
    have pair : (Utf16.encode ['H', '😀']).length = 3 := rfl
    simp [stringsOfEachWidth, Compressed.limit, pair, -List.reduceReplicate]
  obtain ⟨h, opened, sound, entries, done, count, all⟩ := walk_build stringsOfEachWidth 3 short
  obtain ⟨s, offset, there, stores, handed, value, same⟩ := all 3 (List.replicate 0x2000 0x41) rfl
  have mem : s ∈ h.walk.done := by
    rw [done]
    exact List.mem_append_left _ (List.mem_cons_of_mem _ (List.mem_of_getElem? there))
  have place : (build (stringsOfEachWidth.take 3) 0).data.size = 0x8E := by decide +kernel
  rw [place] at value same
  refine ⟨short, h, opened, sound, ?_, s, mem, ?_, stores.units_eq, offset, handed, value,
    (same (by decide)).2⟩
  · rw [done, List.length_append, List.length_cons, count, List.length_map, List.length_range']
    rfl
  · rw [stores.prefixSize_eq, List.length_replicate]
    rfl

/-- Eight strings of `n` zero units and one of a letter. -/
def longStrings (n : Nat) : List (List UInt16) := List.replicate 8 (List.replicate n 0) ++ [[0x48]]

section LongStrings

variable {n : Nat}

theorem size_build_longStrings (long : 0x4000 ≤ 2 * n + 1) :
    (build ((longStrings n).take 8) 0).data.size = 1 + 8 * (4 + 2 * n + 1) := by
  have front : (longStrings n).take 8 = List.replicate 8 (List.replicate n 0) := rfl
  rw [front, build_zero, BuiltHeap.size_ofItems_replicate, UserString.encode, List.length_append,
    List.length_append, Utf16.length_bytesOfUnits, List.length_replicate,
    Compressed.length_encode_of_long long, List.length_singleton]

/-- The payload of the first string reaches over the position 25. -/
theorem zero_in_longStrings (long : 0x4000 ≤ 2 * n + 1) :
    (build (longStrings n) 0).data[25]? = some 0 := by
  have first : (longStrings n)[0]? = some (List.replicate n 0) := rfl
  have whole : (BuiltHeap.ofItems UserString.encode (longStrings n)).data.At
      (UserString.encode (List.replicate n 0)) 1 := BuiltHeap.at_ofItems first
  have units : Utf16.bytesOfUnits (List.replicate n 0) = List.replicate (n * 2) 0 := by
    have zero : Bytes.leBytes 2 (0 : UInt16).toNat = List.replicate 2 0 := by decide
    rw [Utf16.bytesOfUnits, List.flatMap_replicate, zero, List.flatten_replicate_replicate]
  have zeros := whole.left.right 20 (by rw [units, List.length_replicate]; omega)
  rw [List.length_replicate, Compressed.length_encode_of_long long, units] at zeros
  rw [build_zero]
  refine zeros.trans ?_
  rw [List.getElem?_replicate, if_pos (by omega)]

end LongStrings

/--
The position that is handed out for the last one of these strings lies within the first one, and
what is found there depends on the byte at this position alone.
-/
theorem wrapped_offset_finds_another_string :
    (∀ units ∈ longStrings 0x0FFFFFFF, 2 * units.length + 1 < Compressed.limit) ∧
    (longStrings 0x0FFFFFFF)[8]? = some [0x48] ∧
    (build (longStrings 0x0FFFFFFF) 0).offsets[8]? = some 25 ∧
    ∃ h, ofBytes (build (longStrings 0x0FFFFFFF) 0).data = .ok h ∧
      h.get (25 : UInt32).toNat = .ok (.blank 25) ∧ (UserString.blank 25).units ≠ [0x48] ∧
      ∀ data : Bytes, data[25]? = h.data[25]? →
        (UserStringHeap.mk data).get 25 = .ok (.blank 25) := by
  have last (n : Nat) : (longStrings n)[8]? = some [0x48] := rfl
  have place : (build ((longStrings 0x0FFFFFFF).take 8) 0).offset = 25 := by
    rw [BuiltHeap.offset, size_build_longStrings (by decide)]
    rfl
  have zero : (build (longStrings 0x0FFFFFFF) 0).data[25]? = some 0 :=
    zero_in_longStrings (by decide)
  refine ⟨fun units mem => ?_, last _, (offsets_build 0 (last _)).trans (congrArg some place),
    _, opens_build .., get_of_zero zero, by decide, fun data same => get_of_zero (same.trans zero)⟩
  rcases List.mem_append.1 mem with long | short
  · rw [List.eq_of_mem_replicate long, List.length_replicate]
    decide
  · rw [List.mem_singleton.1 short]
    decide

end UserStringHeap
end ManagedImage
