/-
Work on a list that may stop early. `Progress` keeps what was done before the
first failure beside the failure; `toExcept` forgets the former.

Main statement: forgetting gives the failure, or all results if there is none
(`toExcept_traverse`).
-/

namespace ManagedImage

/-- The results before the first failure, and the failure if there was one. -/
structure Progress (ε α : Type) where
  done : List α
  fault : Option ε
deriving DecidableEq, Repr

namespace Progress

/-- All results, or the failure. -/
def toExcept {ε α : Type} (p : Progress ε α) : Except ε (List α) :=
  match p.fault with
  | none => .ok p.done
  | some e => .error e

/-- Applies `f` along a list up to its first failure. -/
def traverse {ε α β : Type} (f : α → Except ε β) : List α → Progress ε β
  | [] => ⟨[], none⟩
  | a :: rest =>
    match f a with
    | .ok b => ⟨b :: (traverse f rest).done, (traverse f rest).fault⟩
    | .error e => ⟨[], some e⟩

theorem toExcept_traverse {ε α β : Type} (f : α → Except ε β) (l : List α) :
    (traverse f l).toExcept = l.mapM f := by
  induction l with
  | nil => rfl
  | cons a rest ih =>
    rw [List.mapM_cons, ← ih]
    cases h : f a with
    | error e => simp [traverse, h, toExcept, bind, Except.bind]
    | ok b =>
      cases hf : (traverse f rest).fault <;>
        simp [traverse, h, hf, toExcept, bind, Except.bind, pure, Except.pure]

end Progress

end ManagedImage
