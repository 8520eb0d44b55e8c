import Lox.Proofs.Runs.Unless
import Lox.Session

/-!
# More fuel

A run that ends for another reason than fuel ends the same way with more of it. So of all the runs of
a text that differ in nothing but fuel, either none ends, or they are the same from some fuel on.
-/

namespace Lox

section
variable {ε σ α : Type} {out : ε}

/-- A run that does not end for lack of fuel is the same as the other one. -/
abbrev Prolonged (out : ε) (run longer : EStateM ε σ α) : Prop := SameUnless (· = out) run longer

/-- Runs that differ in nothing but fuel never end, or are the same from some fuel on. -/
theorem settles {runs : Nat → EStateM ε σ α}
    (longer : ∀ {n m}, n ≤ m → Prolonged out (runs n) (runs m)) (s : σ) :
    (∀ n, ∃ s', runs n s = .error out s') ∨
      ∃ enough, (¬ ∃ s', runs enough s = .error out s') ∧ ∀ n ≥ enough, runs n s = runs enough s := by
  by_cases never : ∀ n, ∃ s', runs n s = .error out s'
  · exact .inl never
  · obtain ⟨enough, ends⟩ := Classical.not_forall.1 never
    refine .inr ⟨enough, ends, ?_⟩
    intro n more
    rcases longer more s with ⟨e, s', stopped, rfl⟩ | same
    · exact absurd ⟨s', stopped⟩ ends
    · exact same

end

/-- More fuel only prolongs the run of a program. -/
theorem prolonged_interpret {σ : Type} (steps : Steps σ) (p : Program) {n m : Nat} (more : n ≤ m) :
    Prolonged .outOfFuel (interpret steps n p) (interpret steps m p) := by
  have agree : steps.SameUnless (· = .outOfFuel) steps := by
    constructor
    case inCall =>
      rintro step e rfl
      rfl
    case literal => exact fun _ _ => rfl
    all_goals intros; exact .refl _
  obtain ⟨k, rfl⟩ := Nat.exists_eq_add_of_le more
  exact sameUnless_interpret agree (.inr rfl) n p

/-! ## Texts -/

namespace Acting

theorem prolonged_perform {α : Type} {runs longer : Steps Machine → Running α}
    (prolonged : ∀ steps, Prolonged .outOfFuel (runs steps) (longer steps)) :
    Prolonged (.stopped .outOfFuel) (perform runs) (perform longer) := by
  rintro ⟨machine, table, nextId⟩
  unfold perform
  rcases prolonged (Access.distances table).steps machine with ⟨e, m, stopped, rfl⟩ | same
  · exact .inl ⟨_, ⟨m, table, nextId⟩, by simp only [stopped], rfl⟩
  · exact .inr (by simp only [same])

theorem prolonged_run (source : String) {n m : Nat} (more : n ≤ m) :
    Prolonged (.stopped .outOfFuel) (run n source) (run m source) :=
  (SameUnless.refl _).bind fun p => (SameUnless.refl _).bind fun _ =>
    (prolonged_perform fun steps => prolonged_interpret steps p more).bind fun _ => .refl _

theorem prolonged_runQuietly (source : String) {n m : Nat} (more : n ≤ m) :
    Prolonged (.stopped .outOfFuel) (runQuietly n source) (runQuietly m source) :=
  (SameUnless.refl _).bind fun _ => (SameUnless.refl _).bind fun p => (SameUnless.refl _).bind fun _ =>
    prolonged_perform fun steps => prolonged_interpret steps p more

end Acting

end Lox
