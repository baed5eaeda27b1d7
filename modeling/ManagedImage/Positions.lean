/-
Sets of positions below a bound, one mark for each position. Inserting and
testing take the same time however many positions the set holds.

Main statement: the set of a list holds what is in the list and below the bound
(`contains_ofList`).
-/

namespace ManagedImage

/-- A set of positions below the count of its marks. -/
structure Positions where
  marks : Array Bool
deriving DecidableEq

namespace Positions

/-- No position below `bound`. -/
def empty (bound : Nat) : Positions := ⟨Array.replicate bound false⟩

/-- Adds a position; one that is not below the bound is left out. -/
def insert (p : Positions) (i : Nat) : Positions := ⟨p.marks.setIfInBounds i true⟩

/-- The positions of a list that are below `bound`. -/
def ofList (bound : Nat) (positions : List Nat) : Positions := positions.foldl insert (empty bound)

/-- Whether a position is in the set. -/
def contains (p : Positions) (i : Nat) : Bool := p.marks.getD i false

theorem contains_insert (p : Positions) (i j : Nat) :
    (p.insert i).contains j = true ↔ (i = j ∧ i < p.marks.size) ∨ p.contains j = true := by
  simp only [contains, insert, Array.getD_eq_getD_getElem?, Array.getElem?_setIfInBounds]
  by_cases same : i = j
  · subst same
    by_cases inside : i < p.marks.size
    · rw [if_pos rfl, if_pos inside]
      exact ⟨fun _ => .inl ⟨rfl, inside⟩, fun _ => rfl⟩
    · rw [if_pos rfl, if_neg inside, Array.getElem?_eq_none (Nat.le_of_not_lt inside)]
      exact ⟨fun h => .inr h, fun h => h.elim (fun h => absurd h.2 inside) id⟩
  · rw [if_neg same]
    exact ⟨fun h => .inr h, fun h => h.elim (fun h => absurd h.1 same) id⟩

theorem contains_foldl_insert (p : Positions) (positions : List Nat) (j : Nat) :
    (positions.foldl insert p).contains j = true ↔
      (j ∈ positions ∧ j < p.marks.size) ∨ p.contains j = true := by
  induction positions generalizing p with
  | nil => simp
  | cons i rest ih =>
    have size : (p.insert i).marks.size = p.marks.size := Array.size_setIfInBounds ..
    rw [List.foldl_cons, ih, contains_insert, size, List.mem_cons]
    constructor
    · rintro (⟨later, inside⟩ | ⟨rfl, inside⟩ | before)
      · exact .inl ⟨.inr later, inside⟩
      · exact .inl ⟨.inl rfl, inside⟩
      · exact .inr before
    · rintro (⟨rfl | later, inside⟩ | before)
      · exact .inr (.inl ⟨rfl, inside⟩)
      · exact .inl ⟨later, inside⟩
      · exact .inr (.inr before)

/-- The set of a list holds what is in the list and below the bound. -/
theorem contains_ofList (bound : Nat) (positions : List Nat) (i : Nat) :
    (ofList bound positions).contains i = true ↔ i ∈ positions ∧ i < bound := by
  have nothing : (empty bound).contains i = false := by
    simp only [empty, contains, Array.getD_eq_getD_getElem?, Array.getElem?_replicate]
    split <;> rfl
  have size : (empty bound).marks.size = bound := Array.size_replicate
  rw [ofList, contains_foldl_insert, size, nothing]
  exact ⟨fun h => h.elim id nofun, .inl⟩

end Positions

end ManagedImage
