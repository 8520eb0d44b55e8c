/-!
# What runs keep

A run on a state keeps a relation if the state it found is related to the one it leaves, however it
ends.
-/

namespace Lox

/-- The state that a run leaves. -/
def stateLeft {ε σ α : Type} : EStateM.Result ε σ α → σ
  | .ok _ s => s
  | .error _ s => s

/-- Returning something else leaves the same state. -/
theorem stateLeft_return {ε σ α β : Type} (run : EStateM ε σ α) (b : β) (s : σ) :
    stateLeft ((run >>= fun _ => pure b) s) = stateLeft (run s) := by
  show stateLeft (EStateM.bind run (fun _ => pure b) s) = _
  unfold EStateM.bind
  cases run s <;> rfl

section
variable {ε σ α β : Type} {run : EStateM ε σ α} {f : α → EStateM ε σ β} {s s' : σ}

theorem run_bind_of_ok {a : α} (first : run s = .ok a s') : (run >>= f) s = f a s' := by
  show EStateM.bind run f s = _
  unfold EStateM.bind
  rw [first]

theorem run_bind_of_error {e : ε} (first : run s = .error e s') :
    (run >>= f) s = .error e s' := by
  show EStateM.bind run f s = _
  unfold EStateM.bind
  rw [first]

end

/-- However a run ends, the state before it is related to the one after it. -/
def Keeps {ε σ α : Type} (R : σ → σ → Prop) (run : EStateM ε σ α) : Prop :=
  ∀ s, R s (stateLeft (run s))

variable {ε σ α β : Type} {R : σ → σ → Prop}

theorem keeps_modify {f : σ → σ} (keeps : ∀ s, R s (f s)) :
    Keeps R (modify f : EStateM ε σ PUnit) := keeps

section
variable [Std.Refl R]

theorem keeps_pure (a : α) : Keeps R (pure a : EStateM ε σ α) := Std.Refl.refl

theorem keeps_throw (e : ε) : Keeps R (throw e : EStateM ε σ α) := Std.Refl.refl

theorem keeps_get : Keeps R (get : EStateM ε σ σ) := Std.Refl.refl

end

theorem Keeps.bind [Trans R R R] {run : EStateM ε σ α} {f : α → EStateM ε σ β}
    (first : Keeps R run) (second : ∀ a, Keeps R (f a)) : Keeps R (run >>= f) := by
  intro s
  have kept := first s
  show R s (stateLeft (EStateM.bind run f s))
  unfold EStateM.bind
  cases ran : run s with
  | ok a s' =>
    rw [ran] at kept
    exact Trans.trans kept (second a s')
  | error e s' =>
    rw [ran] at kept
    exact kept

theorem Keeps.map [Std.Refl R] [Trans R R R] {run : EStateM ε σ α} (f : α → β)
    (keeps : Keeps R run) : Keeps R (f <$> run) :=
  keeps.bind fun _ => keeps_pure _

theorem Keeps.adaptExcept {run : EStateM ε σ α} (f : ε → ε) (keeps : Keeps R run) :
    Keeps R (run.adaptExcept f) := by
  intro s
  have kept := keeps s
  unfold EStateM.adaptExcept
  cases ran : run s with
  | ok a s' =>
    rw [ran] at kept
    exact kept
  | error e s' =>
    rw [ran] at kept
    exact kept

end Lox
