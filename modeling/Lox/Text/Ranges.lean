/-!
# Character sets given by ranges

A set of characters is a list of closed ranges of code points in ascending order. Main
statement: on such a list `contains` is membership in one of the ranges.
-/

namespace Lox.Text

/-- Closed ranges of code points, each with its first and its last one. -/
abbrev Ranges := List (Nat × Nat)

/-- Ranges in ascending order, without overlap, none of which starts before the bound. -/
def Ranges.AscendingFrom (bound : Nat) : Ranges → Prop
  | [] => True
  | (lo, hi) :: rest => bound ≤ lo ∧ lo ≤ hi ∧ AscendingFrom (hi + 1) rest

instance Ranges.decidableAscendingFrom : (bound : Nat) → (rs : Ranges) →
    Decidable (rs.AscendingFrom bound)
  | _, [] => inferInstanceAs (Decidable True)
  | _, (_, hi) :: rest =>
    have := decidableAscendingFrom (hi + 1) rest
    inferInstanceAs (Decidable (_ ∧ _ ∧ _))

/-- The first range that does not end before the code point decides. -/
def Ranges.contains : Ranges → Nat → Bool
  | [], _ => false
  | (lo, hi) :: rest, n => if n ≤ hi then decide (lo ≤ n) else Ranges.contains rest n

theorem Ranges.AscendingFrom.bound_le {bound : Nat} {rs : Ranges} (h : rs.AscendingFrom bound) :
    ∀ r ∈ rs, bound ≤ r.1 := by
  induction rs generalizing bound with
  | nil => simp
  | cons r rest ih =>
    obtain ⟨lo, hi⟩ := r
    obtain ⟨start, ordered, tail⟩ := h
    intro s hs
    rcases List.mem_cons.1 hs with rfl | hs
    · exact start
    · have := ih tail s hs; omega

theorem Ranges.contains_iff {bound : Nat} {rs : Ranges} (h : rs.AscendingFrom bound) (n : Nat) :
    rs.contains n = true ↔ ∃ r ∈ rs, r.1 ≤ n ∧ n ≤ r.2 := by
  induction rs generalizing bound with
  | nil => simp [contains]
  | cons r rest ih =>
    obtain ⟨lo, hi⟩ := r
    obtain ⟨_, _, tail⟩ := h
    have later := tail.bound_le
    simp only [contains, List.mem_cons, exists_eq_or_imp]
    split
    · rename_i within
      constructor
      · intro lower; exact .inl ⟨of_decide_eq_true lower, within⟩
      · rintro (⟨lower, _⟩ | ⟨s, hs, lower, _⟩)
        · exact decide_eq_true lower
        · have := later s hs; omega
    · rename_i beyond
      rw [ih tail]
      constructor
      · exact .inr
      · rintro (⟨_, upper⟩ | found)
        · omega
        · exact found

end Lox.Text
