/-
How code falls into instructions. The instructions of code stand one behind the
other, from its start to its end (`Instruction.Tiles`), and each is as long as its
opcode and its operand (`Instruction.Sized`).

No instruction depends on the bytes behind it, nor on how many there are: code
that is read is read in the same way in front of other code, and the other code
is then read as if it stood alone, but for the positions
(`Instruction.readAll_splits`). So the end of the first code is a place from which
reading cannot get out of step.
-/
import ManagedImage.Proofs.InstructionOrder
import ManagedImage.Proofs.TableRows

namespace ManagedImage

open Reader

/-! ## Readers behind other bytes -/

theorem Bytes.match_behind (front data : Bytes) (pos n : Nat) :
    Bytes.Match (front ++ data) (front.size + pos) data pos n := by
  intro k _
  rw [Nat.add_assoc, Array.getElem?_append_right (Nat.le_add_right ..), Nat.add_sub_cancel_left]

namespace Reader

variable {α β : Type}

/-- Bytes in front change no success of a reader, and make none. -/
class Movable (r : Reader α) : Prop extends Local r where
  behind : ∀ {front data : Bytes} {pos stop : Nat} {v : α},
    r ⟨front ++ data, front.size + pos⟩ = .ok v ⟨front ++ data, front.size + stop⟩ ↔
      r ⟨data, pos⟩ = .ok v ⟨data, stop⟩

/-- A success behind other bytes stops behind them. -/
theorem Local.stays_behind {r : Reader α} [Local r] {front data : Bytes} {pos : Nat} {v : α}
    {c' : Cursor} (h : r ⟨front ++ data, front.size + pos⟩ = .ok v c') :
    ∃ stop, c' = ⟨front ++ data, front.size + stop⟩ := by
  have forward := Nat.le_trans (Nat.le_add_right ..) (Local.keeps h).2
  refine ⟨c'.pos - front.size, ?_⟩
  rw [Nat.add_sub_cancel' forward]
  exact Local.stays h

instance (a : α) : Movable (pure a : Reader α) where
  behind := by
    intro front data pos stop v
    simp only [pure_eq_ok, Cursor.mk.injEq, true_and, Nat.add_left_cancel_iff]

instance {r : Reader α} {f : α → Reader β} [Movable r] [∀ a, Movable (f a)] :
    Movable (r >>= f) where
  behind := by
    intro front data pos stop v
    rw [bind_eq_ok, bind_eq_ok]
    constructor
    · rintro ⟨a, c₁, first, second⟩
      obtain ⟨mid, rfl⟩ := Local.stays_behind first
      exact ⟨a, ⟨data, mid⟩, Movable.behind.1 first, Movable.behind.1 second⟩
    · rintro ⟨a, ⟨data', mid⟩, first, second⟩
      obtain ⟨rfl, -⟩ := Local.keeps first
      exact ⟨a, ⟨front ++ data', front.size + mid⟩, Movable.behind.2 first, Movable.behind.2 second⟩

instance {r : Reader α} {f : α → β} [Movable r] : Movable (f <$> r) :=
  inferInstanceAs (Movable (r >>= fun a => pure (f a)))

instance {p : Prop} [Decidable p] {r s : Reader α} [Movable r] [Movable s] :
    Movable (if p then r else s) := by split <;> infer_instance

instance (n : Nat) : Movable (nat n) where
  behind := by
    intro front data pos stop v
    have number := (Bytes.match_behind front data pos n).leNat
    have length : (front ++ data).size = front.size + data.size := Array.size_append
    by_cases fits : pos + n ≤ data.size
    · have fits' : front.size + pos + n ≤ (front ++ data).size := by omega
      rw [nat_of_fits (c := ⟨data, pos⟩) fits,
        nat_of_fits (c := ⟨front ++ data, front.size + pos⟩) fits', number, Nat.add_assoc]
      simp only [EStateM.Result.ok.injEq, Cursor.mk.injEq, true_and, Nat.add_left_cancel_iff]
    · have lacks : ¬ front.size + pos + n ≤ (front ++ data).size := by omega
      rw [nat_of_lacks (c := ⟨data, pos⟩) fits,
        nat_of_lacks (c := ⟨front ++ data, front.size + pos⟩) lacks]
      simp only [reduceCtorEq]

instance (n : Nat) : Movable (ensure n) where
  behind := by
    intro front data pos stop v
    have room : Cursor.remaining ⟨front ++ data, front.size + pos⟩ =
        Cursor.remaining ⟨data, pos⟩ := by
      simp only [Cursor.remaining, Array.size_append]
      omega
    by_cases fits : n ≤ Cursor.remaining ⟨data, pos⟩
    · rw [ensure_of_fits fits, ensure_of_fits (room ▸ fits)]
      simp only [EStateM.Result.ok.injEq, Cursor.mk.injEq, true_and, Nat.add_left_cancel_iff]
    · rw [ensure_of_lacks fits, ensure_of_lacks (room ▸ fits)]
      simp only [reduceCtorEq]

instance : Movable u8 := by unfold u8; infer_instance
instance : Movable u16 := by unfold u16; infer_instance
instance : Movable u32 := by unfold u32; infer_instance
instance : Movable u64 := by unfold u64; infer_instance
instance (n : Nat) : Movable (int n) := by unfold int; infer_instance

theorem movable_times (r : Reader α) [Movable r] (n : Nat) : Movable (times r n) := by
  induction n with
  | zero => exact inferInstanceAs (Movable (pure [] : Reader (List α)))
  | succ n ih => unfold times; infer_instance

instance {r : Reader α} [Movable r] {n : Nat} : Movable (times r n) := movable_times r n

end Reader

instance (kind : OperandKind) : Movable (Operand.read kind) := by
  cases kind <;> unfold Operand.read <;> infer_instance

instance (first : UInt8) : Movable (Opcode.lookup first) := by unfold Opcode.lookup; infer_instance

/-- The position of an opcode shows in its errors only. -/
instance : Movable Opcode.read where
  behind := by
    intro front data pos stop o
    rw [Opcode.read_eq_ok, Opcode.read_eq_ok]
    constructor
    · rintro ⟨first, c₁, byte, looked⟩
      obtain ⟨mid, rfl⟩ := Local.stays_behind byte
      exact ⟨first, ⟨data, mid⟩, Movable.behind.1 byte, Movable.behind.1 looked⟩
    · rintro ⟨first, ⟨data', mid⟩, byte, looked⟩
      obtain ⟨rfl, -⟩ := Local.keeps byte
      exact ⟨first, ⟨front ++ data', front.size + mid⟩, Movable.behind.2 byte,
        Movable.behind.2 looked⟩

/-! ## Sizes -/

/-- The instruction is as long as its opcode and its operand: a `switch` has a count and its distances. -/
def Instruction.Sized (i : Instruction) : Prop :=
  match i.opcode.operand.size? with
  | some size => i.size = i.opcode.size + size
  | none => ∃ distances, i.operand = .switch distances ∧
      i.size = i.opcode.size + (4 + 4 * distances.length)

instance (n : Nat) : Takes (int n) n := by unfold int; exact Takes.of_eq rfl

theorem Operand.pos_of_read_switch {c c' : Cursor} {operand : Operand}
    (h : Operand.read .switch c = .ok operand c') :
    ∃ distances, operand = .switch distances ∧ c'.pos = c.pos + (4 + 4 * distances.length) := by
  obtain ⟨count, c₁, counted, h⟩ := bind_eq_ok.1 h
  obtain ⟨_, c₂, enough, h⟩ := bind_eq_ok.1 h
  obtain ⟨distances, all, rfl⟩ := map_eq_ok.1 h
  have length := length_of_times all
  refine ⟨distances, rfl, ?_⟩
  rw [Takes.moves all, Takes.moves enough, Takes.moves counted, length]
  omega

theorem Operand.pos_of_read {kind : OperandKind} {c c' : Cursor} {operand : Operand} {n : Nat}
    (size : kind.size? = some n) (h : Operand.read kind c = .ok operand c') : c'.pos = c.pos + n := by
  cases Nat.eq_zero_or_pos n with
  | inl none =>
    subst none
    cases kind <;> cases size
    obtain ⟨-, rfl⟩ := pure_eq_ok.1 h
    rfl
  | inr some =>
    obtain ⟨g, field⟩ := Operand.read_field size some
    rw [field] at h
    exact Takes.moves h

namespace Instruction

theorem sized_of_read {c c' : Cursor} {i : Instruction} (h : read c = .ok i c') : i.Sized := by
  obtain ⟨o, c₁, operand, opcode, behind, rfl⟩ := read_eq_ok h
  have first := Opcode.pos_of_read opcode
  unfold Sized
  dsimp only
  split
  · next size known =>
    have later := Operand.pos_of_read known behind
    omega
  · next unknown =>
    have isSwitch : o.operand = .switch := by
      cases kind : o.operand <;> rw [kind] at unknown <;> first | rfl | cases unknown
    rw [isSwitch] at behind
    obtain ⟨distances, rfl, later⟩ := Operand.pos_of_read_switch behind
    exact ⟨distances, rfl, by omega⟩

end Instruction

/-! ## One behind the other -/

namespace Instruction

/-- The instructions stand one behind the other from `start` up to `stop`, without gaps. -/
def Tiles (start stop : Nat) : List Instruction → Prop
  | [] => start = stop
  | i :: later => i.offset = start ∧ Tiles i.stop stop later

instance : Within Opcode.read where
  inside h within := by
    obtain ⟨first, c₁, byte, looked⟩ := Opcode.read_eq_ok.1 h
    have inside := Within.inside byte within
    unfold Opcode.lookup at looked
    split at looked
    · exact Within.inside looked inside
    · obtain ⟨-, rfl⟩ := pure_eq_ok.1 looked
      exact inside

instance (kind : OperandKind) : Within (Operand.read kind) := by
  cases kind <;> unfold Operand.read <;> infer_instance

instance : Within read := by unfold read; infer_instance

theorem tiles_of_readsOn {c : Cursor} {list : List Instruction} (h : ReadsOn read c list)
    (within : c.InBounds) : Tiles c.pos c.data.size list := by
  induction h with
  | @finish c past =>
    have behind : ¬ c.pos < c.data.size := by simpa [Cursor.hasMore] using past
    exact Nat.le_antisymm within (Nat.le_of_not_lt behind)
  | @step c c' i later more first rest ih =>
    have all := ih (Within.inside first within)
    obtain ⟨data, forward⟩ := Advances.forward first
    obtain ⟨o, c₁, operand, -, -, rfl⟩ := read_eq_ok first
    refine ⟨rfl, ?_⟩
    have stop : c.pos + (c'.pos - c.pos) = c'.pos := Nat.add_sub_cancel' (Nat.le_of_lt forward)
    rw [Instruction.stop, stop, ← data]
    exact all

theorem sized_of_readsOn {c : Cursor} {list : List Instruction} (h : ReadsOn read c list) :
    ∀ i ∈ list, i.Sized := by
  induction h with
  | finish => exact fun _ none => absurd none List.not_mem_nil
  | step more first rest ih =>
    intro i mem
    rcases List.mem_cons.1 mem with rfl | mem
    · exact sized_of_read first
    · exact ih i mem

end Instruction

/-! ## Code in front of other code -/

/-- What is read up to the end of `a` is read in front of `b` too, and the rest is read behind it. -/
theorem Reader.readsOn_append {α : Type} {r : Reader α} [Local r] [Advances r] [Within r]
    {a : Bytes} (b : Bytes) {pos : Nat} {xs zs : List α} (h : ReadsOn r ⟨a, pos⟩ xs)
    (within : pos ≤ a.size) :
    ReadsOn r ⟨a ++ b, pos⟩ zs ↔ ∃ ys, ReadsOn r ⟨a ++ b, a.size⟩ ys ∧ zs = xs ++ ys := by
  generalize start : (⟨a, pos⟩ : Cursor) = c at h
  induction h generalizing pos zs with
  | finish past =>
    subst start
    have behind : ¬ pos < a.size := by simpa [Cursor.hasMore] using past
    obtain rfl : pos = a.size := by omega
    simp
  | @step c c' v later more first rest ih =>
    subst start
    obtain ⟨rfl, forward⟩ := Advances.forward first
    have inside : pos < c'.data.size := by simpa [Cursor.hasMore] using more
    have within' : c'.pos ≤ c'.data.size := Within.inside first within
    have more' : Cursor.hasMore ⟨c'.data ++ b, pos⟩ = true := by
      simp only [Cursor.hasMore, Array.size_append, decide_eq_true_eq]
      omega
    have agree : c'.data.Agree (c'.data ++ b) pos c'.pos := fun i _ less =>
      (Array.getElem?_append_left (by omega)).symm
    have first' := Local.carries first (by rw [Array.size_append]; omega) agree
    have tail := @ih c'.pos
    constructor
    · intro on
      cases on with
      | finish past => rw [more'] at past; cases past
      | step _ again on =>
        rw [first'] at again
        cases again
        obtain ⟨ys, behind, rfl⟩ := (tail within' rfl).1 on
        exact ⟨ys, behind, rfl⟩
    · rintro ⟨ys, behind, rfl⟩
      exact .step more' first' ((tail within' rfl).2 ⟨ys, behind, rfl⟩)

namespace Instruction

/-- The instruction `d` positions further on. -/
def shift (d : Nat) (i : Instruction) : Instruction := { i with offset := d + i.offset }

theorem read_behind {front data : Bytes} {pos : Nat} {j : Instruction} {c' : Cursor} :
    read ⟨front ++ data, front.size + pos⟩ = .ok j c' ↔
      ∃ i stop, read ⟨data, pos⟩ = .ok i ⟨data, stop⟩ ∧ j = i.shift front.size ∧
        c' = ⟨front ++ data, front.size + stop⟩ := by
  constructor
  · intro h
    obtain ⟨o, c₁, operand, opcode, behind, rfl⟩ := read_eq_ok h
    obtain ⟨mid, rfl⟩ := Local.stays_behind opcode
    obtain ⟨stop, rfl⟩ := Local.stays_behind behind
    refine ⟨_, stop, read_of_operand (Movable.behind.1 opcode) (Movable.behind.1 behind), ?_, rfl⟩
    simp only [shift, Nat.add_sub_add_left]
  · rintro ⟨i, stop, h, rfl, rfl⟩
    obtain ⟨o, ⟨data', mid⟩, operand, opcode, behind, rfl⟩ := read_eq_ok h
    obtain ⟨rfl, -⟩ := Local.keeps opcode
    rw [read_of_operand (Movable.behind.2 opcode) (Movable.behind.2 behind)]
    simp only [shift, Nat.add_sub_add_left]

theorem hasMore_behind (front data : Bytes) (pos : Nat) :
    Cursor.hasMore ⟨front ++ data, front.size + pos⟩ = Cursor.hasMore ⟨data, pos⟩ := by
  simp only [Cursor.hasMore, Array.size_append, Nat.add_lt_add_iff_left]

theorem readsOn_of_behind {front data : Bytes} {pos : Nat} {zs : List Instruction}
    (h : ReadsOn read ⟨front ++ data, front.size + pos⟩ zs) :
    ∃ ys, ReadsOn read ⟨data, pos⟩ ys ∧ zs = ys.map (shift front.size) := by
  generalize start : (⟨front ++ data, front.size + pos⟩ : Cursor) = c at h
  induction h generalizing pos with
  | finish past =>
    subst start
    rw [hasMore_behind] at past
    exact ⟨[], .finish past, rfl⟩
  | step more first rest ih =>
    subst start
    rw [hasMore_behind] at more
    obtain ⟨i, stop, one, rfl, rfl⟩ := read_behind.1 first
    obtain ⟨ys, on, rfl⟩ := ih rfl
    exact ⟨i :: ys, .step more one on, rfl⟩

theorem readsOn_behind {data : Bytes} {pos : Nat} {ys : List Instruction} (front : Bytes)
    (h : ReadsOn read ⟨data, pos⟩ ys) :
    ReadsOn read ⟨front ++ data, front.size + pos⟩ (ys.map (shift front.size)) := by
  generalize start : (⟨data, pos⟩ : Cursor) = c at h
  induction h generalizing pos with
  | finish past =>
    subst start
    exact .finish (by rw [hasMore_behind]; exact past)
  | @step c c' i later more first rest ih =>
    subst start
    obtain ⟨data', stop⟩ := c'
    obtain ⟨rfl, -⟩ := Local.keeps first
    refine .step (by rw [hasMore_behind]; exact more) (read_behind.2 ⟨i, stop, first, rfl, rfl⟩) ?_
    exact ih rfl

theorem readAll_append {a : Bytes} {xs : List Instruction} (h : readAll.run a = .ok xs) (b : Bytes)
    (zs : List Instruction) :
    readAll.run (a ++ b) = .ok zs ↔
      ∃ ys, readAll.run b = .ok ys ∧ zs = xs ++ ys.map (shift a.size) := by
  unfold readAll
  rw [untilEnd_eq_ok, readsOn_append b (untilEnd_eq_ok.1 h) (Nat.zero_le _)]
  simp only [untilEnd_eq_ok]
  constructor
  · rintro ⟨later, behind, rfl⟩
    obtain ⟨ys, on, rfl⟩ := @readsOn_of_behind a b 0 _ behind
    exact ⟨ys, on, rfl⟩
  · rintro ⟨ys, on, rfl⟩
    exact ⟨ys.map (shift a.size), readsOn_behind a on, rfl⟩

end Instruction

/-! ## The string loads among them -/

/-- The site `d` positions further on. -/
def StringSite.shift (d : Nat) (s : StringSite) : StringSite := { s with offset := d + s.offset }

theorem Instruction.stringSite?_shift (d : Nat) (i : Instruction) :
    (i.shift d).stringSite? = i.stringSite?.map (StringSite.shift d) := by
  unfold stringSite?
  have same : (i.shift d).loadsString = i.loadsString := rfl
  rw [same]
  split
  · rw [Option.map_map]
    rfl
  · rfl

theorem Instruction.filterMap_stringSite?_shift (d : Nat) (list : List Instruction) :
    (list.map (shift d)).filterMap stringSite? =
      (list.filterMap stringSite?).map (StringSite.shift d) := by
  rw [List.filterMap_map, List.map_filterMap]
  congr 1
  funext i
  exact stringSite?_shift d i

theorem StringSite.findAll_eq_ok {code : Bytes} {sites : List StringSite} :
    findAll code = .ok sites ↔
      ∃ list, Instruction.readAll.run code = .ok list ∧
        list.filterMap Instruction.stringSite? = sites := by
  rw [findAll_eq_map_readAll]
  exact Except.map_eq_ok

theorem StringSite.findAll_append {a : Bytes} {xs : List Instruction}
    (h : Instruction.readAll.run a = .ok xs) (b : Bytes) (all : List StringSite) :
    findAll (a ++ b) = .ok all ↔
      ∃ later, findAll b = .ok later ∧
        all = xs.filterMap Instruction.stringSite? ++ later.map (shift a.size) := by
  simp only [findAll_eq_ok, Instruction.readAll_append h]
  constructor
  · rintro ⟨zs, ⟨ys, read, rfl⟩, rfl⟩
    refine ⟨_, ⟨ys, read, rfl⟩, ?_⟩
    rw [List.filterMap_append, Instruction.filterMap_stringSite?_shift]
  · rintro ⟨later, ⟨ys, read, rfl⟩, rfl⟩
    refine ⟨_, ⟨ys, read, rfl⟩, ?_⟩
    rw [List.filterMap_append, Instruction.filterMap_stringSite?_shift]

namespace Instruction

/--
**Code falls into its instructions, whatever stands behind it.** The instructions
of code that is read stand one behind the other from position zero to the end,
and each is as long as its opcode and its operand. In front of other code, all is
read if and only if the other code is; the instructions are then those of the
first code and those of the other one behind them, and so are the string loads.
-/
theorem readAll_splits {a : Bytes} {xs : List Instruction} (h : readAll.run a = .ok xs) :
    Tiles 0 a.size xs ∧ (∀ i ∈ xs, i.Sized) ∧
      (∀ b zs, readAll.run (a ++ b) = .ok zs ↔
        ∃ ys, readAll.run b = .ok ys ∧ zs = xs ++ ys.map (shift a.size)) ∧
      ∃ sites, StringSite.findAll a = .ok sites ∧
        ∀ b all, StringSite.findAll (a ++ b) = .ok all ↔
          ∃ later, StringSite.findAll b = .ok later ∧
            all = sites ++ later.map (StringSite.shift a.size) := by
  have on : ReadsOn read ⟨a, 0⟩ xs := untilEnd_eq_ok.1 h
  refine ⟨tiles_of_readsOn on (Nat.zero_le _), sized_of_readsOn on, readAll_append h, ?_⟩
  refine ⟨xs.filterMap stringSite?, ?_, StringSite.findAll_append h⟩
  exact StringSite.findAll_eq_ok.2 ⟨xs, h, rfl⟩

/-- A string load, a `switch` with one distance, and a return. -/
def smallCode : Bytes :=
  #[0x72, 0x01, 0x00, 0x00, 0x70, 0x45, 0x01, 0x00, 0x00, 0x00, 0xF6, 0xFF, 0xFF, 0xFF, 0x2A]

/-- The three of them as they are read. -/
def smallInstructions : List Instruction :=
  [⟨0, 5, ⟨false, 0x72, "ldstr", .token⟩, .token ⟨0x70000001⟩⟩,
   ⟨5, 9, ⟨false, 0x45, "switch", .switch⟩, .switch [-10]⟩,
   ⟨14, 1, ⟨false, 0x2A, "ret", .none⟩, .none⟩]

theorem readAll_splits_small :
    readAll.run smallCode = .ok smallInstructions ∧
      Tiles 0 15 smallInstructions ∧ (∀ i ∈ smallInstructions, i.Sized) ∧
      readAll.run (smallCode ++ smallCode) =
        .ok (smallInstructions ++ smallInstructions.map (shift 15)) ∧
      StringSite.findAll (smallCode ++ smallCode) =
        .ok [⟨0, ⟨0x70000001⟩⟩, ⟨15, ⟨0x70000001⟩⟩] := by
  have small : readAll.run smallCode = .ok smallInstructions :=
    Except.toOption_eq_some.1 (by decide +kernel)
  have site : StringSite.findAll smallCode = .ok [⟨0, ⟨0x70000001⟩⟩] :=
    Except.toOption_eq_some.1 (by decide +kernel)
  obtain ⟨tiles, sized, all, sites, found, allSites⟩ := readAll_splits small
  obtain rfl : sites = [⟨0, ⟨0x70000001⟩⟩] := Except.ok.inj (found.symm.trans site)
  exact ⟨small, tiles, sized, (all _ _).2 ⟨_, small, rfl⟩, (allSites _ _).2 ⟨_, site, rfl⟩⟩

end Instruction

end ManagedImage
