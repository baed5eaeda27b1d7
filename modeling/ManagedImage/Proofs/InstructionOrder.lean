/-
The order of instructions. Each instruction is read behind the one in front of
it, so the instructions of code stand in the order of their positions
(`Instruction.ordered_of_readsOn`), and so do the sites among them
(`StringSite.ordered_of_findAll`).
-/
import ManagedImage.Proofs.StringSites

namespace ManagedImage

open Reader

theorem Opcode.size_pos (o : Opcode) : 0 < o.size := by
  unfold size
  split <;> decide

instance : Advances Instruction.read where
  forward h := by
    obtain ⟨o, c₁, operand, opcode, behind, -⟩ := Instruction.read_eq_ok h
    obtain ⟨data, -⟩ := Local.keeps h
    have first := Opcode.pos_of_read opcode
    have some := o.size_pos
    have later := (Local.keeps behind).2
    exact ⟨data, by omega⟩

namespace Instruction

theorem le_offset_of_readsOn {c : Cursor} {list : List Instruction} (h : ReadsOn read c list) :
    ∀ i ∈ list, c.pos ≤ i.offset := by
  induction h with
  | finish => simp
  | step more first rest ih =>
    obtain ⟨o, c₁, operand, -, -, rfl⟩ := read_eq_ok first
    have forward := (Advances.forward first).2
    intro i mem
    rcases List.mem_cons.1 mem with rfl | mem
    · exact Nat.le_refl _
    · have := ih i mem
      omega

theorem ordered_of_readsOn {c : Cursor} {list : List Instruction} (h : ReadsOn read c list) :
    list.Pairwise fun i j => i.offset < j.offset := by
  induction h with
  | finish => exact .nil
  | step more first rest ih =>
    obtain ⟨o, c₁, operand, -, -, rfl⟩ := read_eq_ok first
    have forward := (Advances.forward first).2
    refine .cons (fun j mem => ?_) ih
    have := le_offset_of_readsOn rest j mem
    simp only
    omega

end Instruction

theorem Instruction.offset_of_stringSite? {i : Instruction} {s : StringSite}
    (h : i.stringSite? = some s) : s.offset = i.offset := by
  unfold stringSite? at h
  split at h
  · obtain ⟨token, -, rfl⟩ := Option.map_eq_some_iff.1 h
    rfl
  · cases h

theorem StringSite.ordered_of_findAll {code : Bytes} {sites : List StringSite}
    (h : findAll code = .ok sites) : sites.Pairwise fun s t => s.offset < t.offset := by
  rw [findAll_eq_map_readAll] at h
  cases read : Instruction.readAll.run code with
  | error e => rw [read] at h; cases h
  | ok list =>
    rw [read] at h
    cases h
    have order := Instruction.ordered_of_readsOn (readsOn_of_untilEnd read)
    refine order.filterMap _ fun i j before s isSite t isSite' => ?_
    rwa [Instruction.offset_of_stringSite? isSite, Instruction.offset_of_stringSite? isSite']

end ManagedImage
