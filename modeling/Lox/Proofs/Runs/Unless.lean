import Lox.Proofs.Runs.Together

/-!
# Runs that are the same unless they end badly

Two runs of a program that differ in their steps and in their fuel are the same where no step and no
lack of fuel makes them differ. Such a difference ends the first run, since nothing takes it up again.
-/

namespace Lox

section
variable {ε σ α β : Type} {bad : ε → Prop}

/-- A run that does not end badly is the same as the other one. -/
def SameUnless (bad : ε → Prop) (run other : EStateM ε σ α) : Prop :=
  ∀ s, (∃ e s', run s = .error e s' ∧ bad e) ∨ other s = run s

theorem endTogether_eq_iff {result result' : EStateM.Result ε σ α} :
    EndTogether Eq result result' ↔ result' = result := by
  constructor
  · rintro (⟨_, rfl⟩ | ⟨_, rfl⟩) <;> rfl
  · rintro rfl
    cases result' with
    | ok a s => exact .ok a rfl
    | error e s => exact .error e rfl

/-- Runs that are the same unless they end badly go together from equal states. -/
theorem sameUnless_iff_together {run other : EStateM ε σ α} :
    SameUnless bad run other ↔ Together Eq bad run other := by
  simp only [SameUnless, Together, endTogether_eq_iff, forall_eq']

namespace SameUnless

theorem refl (run : EStateM ε σ α) : SameUnless bad run run := fun _ => .inr rfl

theorem bind {run other : EStateM ε σ α} {f g : α → EStateM ε σ β}
    (first : SameUnless bad run other) (second : ∀ a, SameUnless bad (f a) (g a)) :
    SameUnless bad (run >>= f) (other >>= g) :=
  sameUnless_iff_together.2 <| (sameUnless_iff_together.1 first).bind fun a =>
    sameUnless_iff_together.1 (second a)

end SameUnless

end

/-! ## Programs -/

section
variable {σ : Type} {bad : Stop → Prop}

/-- The steps of two runs are the same unless they end badly, and what ends badly in a call still
does so outside of it. -/
structure Steps.SameUnless (bad : Stop → Prop) (steps steps' : Steps σ) : Prop where
  lookUp : ∀ env id name, Lox.SameUnless bad (steps.lookUp env id name) (steps'.lookUp env id name)
  assign : ∀ env id name v,
    Lox.SameUnless bad (steps.assign env id name v) (steps'.assign env id name v)
  define : ∀ env name v, Lox.SameUnless bad (steps.define env name v) (steps'.define env name v)
  openBlock : ∀ env statements,
    Lox.SameUnless bad (steps.openBlock env statements) (steps'.openBlock env statements)
  close : ∀ env keyword params body name, Lox.SameUnless bad
    (steps.close env keyword params body name) (steps'.close env keyword params body name)
  bindArguments : ∀ c vs,
    Lox.SameUnless bad (steps.bindArguments c vs) (steps'.bindArguments c vs)
  callNative : ∀ f vs, Lox.SameUnless bad (steps.callNative f vs) (steps'.callNative f vs)
  note : ∀ e, Lox.SameUnless bad (steps.note e) (steps'.note e)
  literal : ∀ id value, steps'.literal id value = steps.literal id value
  inCall : ∀ step e, bad e → bad (e.inCall step)

theorem Steps.SameUnless.together {steps steps' : Steps σ} (agree : steps.SameUnless bad steps') :
    steps.Together Eq bad steps' where
  lookUp env id name := sameUnless_iff_together.1 (agree.lookUp env id name)
  assign env id name v := sameUnless_iff_together.1 (agree.assign env id name v)
  define env name v := sameUnless_iff_together.1 (agree.define env name v)
  openBlock env ss := sameUnless_iff_together.1 (agree.openBlock env ss)
  close env keyword params body name :=
    sameUnless_iff_together.1 (agree.close env keyword params body name)
  bindArguments c vs := sameUnless_iff_together.1 (agree.bindArguments c vs)
  callNative f vs := sameUnless_iff_together.1 (agree.callNative f vs)
  condition _ := sameUnless_iff_together.1 (agree.note _)
  called _ _ := sameUnless_iff_together.1 (agree.note _)
  literal := agree.literal
  inCall := agree.inCall

/-- The runs of a program are the same unless the first one ends badly. More fuel makes no difference
either, if it is bad to have too little of it. -/
theorem sameUnless_interpret {steps steps' : Steps σ} (agree : steps.SameUnless bad steps')
    {more : Nat} (enough : more = 0 ∨ bad .outOfFuel) (n : Nat) (p : Program) :
    SameUnless bad (interpret steps n p) (interpret steps' (n + more) p) :=
  sameUnless_iff_together.2 (together_interpret agree.together enough n p)

end

end Lox
