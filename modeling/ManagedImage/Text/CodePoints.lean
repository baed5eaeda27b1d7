/-
Sets of code points as ranges in ascending order, the form in which a property
of characters is tabulated. A look-up stops at the first range that does not
end before the code point, so what stands early in the order is found early.

Main statement: stopping there loses nothing, a code point is found exactly
when some range holds it (`contains_iff`).
-/

namespace ManagedImage.Text

/-- Closed ranges of code points, each by its first and its last. -/
abbrev CodePoints := List (Nat × Nat)

namespace CodePoints

/-- Whether every range ends before the next one starts, and none is empty. -/
def ascending : CodePoints → Bool
  | [] => true
  | [(first, last)] => first ≤ last
  | (first, last) :: next :: rest => first ≤ last && last < next.1 && ascending (next :: rest)

/-- Whether a code point is in one of the ranges, which have to be ascending. -/
def contains : CodePoints → Nat → Bool
  | [], _ => false
  | (first, last) :: rest, point => if point ≤ last then first ≤ point else contains rest point

theorem ascending_of_cons {range : Nat × Nat} {rest : CodePoints}
    (h : ascending (range :: rest) = true) : ascending rest = true := by
  cases rest <;> simp_all [ascending]

theorem last_lt_of_ascending {first last : Nat} {rest : CodePoints}
    (h : ascending ((first, last) :: rest) = true) : ∀ range ∈ rest, last < range.1 := by
  induction rest generalizing first last with
  | nil => simp
  | cons next rest ih =>
    simp only [ascending, Bool.and_eq_true, decide_eq_true_eq] at h
    obtain ⟨⟨-, apart⟩, later⟩ := h
    intro range mem
    rcases List.mem_cons.mp mem with rfl | mem
    · exact apart
    · have after := ih later range mem
      have proper : next.1 ≤ next.2 := by
        cases rest <;> simp_all [ascending]
      omega

/-- A code point is found exactly when some range holds it. -/
theorem contains_iff {ranges : CodePoints} (h : ranges.ascending = true) (point : Nat) :
    ranges.contains point = true ↔ ∃ range ∈ ranges, range.1 ≤ point ∧ point ≤ range.2 := by
  induction ranges with
  | nil => simp [contains]
  | cons range rest ih =>
    obtain ⟨first, last⟩ := range
    have later := last_lt_of_ascending h
    rw [contains]
    by_cases here : point ≤ last
    · rw [if_pos here, decide_eq_true_eq]
      constructor
      · intro start
        exact ⟨(first, last), List.mem_cons_self, start, here⟩
      · rintro ⟨range, mem, start, -⟩
        rcases List.mem_cons.mp mem with rfl | mem
        · exact start
        · have := later range mem
          omega
    · rw [if_neg here, ih (ascending_of_cons h)]
      constructor
      · rintro ⟨range, mem, inside⟩
        exact ⟨range, List.mem_cons_of_mem _ mem, inside⟩
      · rintro ⟨range, mem, inside⟩
        rcases List.mem_cons.mp mem with rfl | mem
        · exact absurd inside.2 here
        · exact ⟨range, mem, inside⟩

end CodePoints

end ManagedImage.Text
