import Lox.Proofs.Runs.Parting

/-!
# Runs that go together

Two runs of a program can differ in their steps, in their fuel, and in what they keep in their states.
They go together where no step parts them: from related states they end in the same way, in related
states, unless the first one ends badly. What ends a run badly ends it for good, since nothing takes it
up again.
-/

namespace Lox

section
variable {ε σ σ' α β : Type}

/-- From related states, two runs end together unless the first one ends badly. -/
def Together (R : σ → σ' → Prop) (bad : ε → Prop) (run : EStateM ε σ α) (run' : EStateM ε σ' α) :
    Prop :=
  ∀ s s', R s s' → (∃ e t, run s = .error e t ∧ bad e) ∨ EndTogether R (run s) (run' s')

variable {R : σ → σ' → Prop} {bad : ε → Prop}

/-- Where nothing is bad, runs always end together. -/
theorem Together.ends {run : EStateM ε σ α} {run' : EStateM ε σ' α}
    (together : Together R (fun _ => False) run run') {s : σ} {s' : σ'} (states : R s s') :
    EndTogether R (run s) (run' s') := by
  rcases together s s' states with ⟨_, _, _, isBad⟩ | ends
  · exact isBad.elim
  · exact ends

theorem together_pure (a : α) : Together R bad (pure a) (pure a) :=
  fun _ _ states => .inr (.ok a states)

theorem together_throw (e : ε) :
    Together R bad (throw e : EStateM ε σ α) (throw e : EStateM ε σ' α) :=
  fun _ _ states => .inr (.error e states)

theorem together_modify {f : σ → σ} {f' : σ' → σ'} (states : ∀ s s', R s s' → R (f s) (f' s')) :
    Together R bad (modify f : EStateM ε σ PUnit) (modify f' : EStateM ε σ' PUnit) :=
  fun s s' related => .inr <| EndTogether.ok (s := f s) PUnit.unit (states s s' related)

/-- Both runs go on as their states tell. -/
theorem together_get {f : σ → EStateM ε σ α} {f' : σ' → EStateM ε σ' α}
    (each : ∀ s s', R s s' → Together R bad (f s) (f' s')) :
    Together R bad (get >>= f) (get >>= f') :=
  fun s s' states => each s s' states s s' states

namespace Together

/-- What follows on a run has only to do with what the run can give. -/
theorem bind_of {run : EStateM ε σ α} {run' : EStateM ε σ' α} {f : α → EStateM ε σ β}
    {f' : α → EStateM ε σ' β} (first : Together R bad run run')
    (second : ∀ a s t, run s = .ok a t → Together R bad (f a) (f' a)) :
    Together R bad (run >>= f) (run' >>= f') := by
  intro s s' states
  rcases first s s' states with ⟨e, t, stopped, isBad⟩ | ends
  · exact .inl ⟨e, t, run_bind_of_error stopped, isBad⟩
  · generalize ran : run s = result at ends
    generalize ran' : run' s' = result' at ends
    cases ends with
    | ok a states =>
      rw [run_bind_of_ok ran, run_bind_of_ok ran']
      exact second a _ _ ran _ _ states
    | error e states =>
      rw [run_bind_of_error ran, run_bind_of_error ran']
      exact .inr (.error e states)

theorem bind {run : EStateM ε σ α} {run' : EStateM ε σ' α} {f : α → EStateM ε σ β}
    {f' : α → EStateM ε σ' β} (first : Together R bad run run')
    (second : ∀ a, Together R bad (f a) (f' a)) :
    Together R bad (run >>= f) (run' >>= f') :=
  first.bind_of fun a _ _ _ => second a

theorem adaptExcept {run : EStateM ε σ α} {run' : EStateM ε σ' α} {f : ε → ε}
    (keeps : ∀ e, bad e → bad (f e)) (together : Together R bad run run') :
    Together R bad (run.adaptExcept f) (run'.adaptExcept f) := by
  intro s s' states
  unfold EStateM.adaptExcept
  rcases together s s' states with ⟨e, t, stopped, isBad⟩ | ends
  · exact .inl ⟨f e, t, by rw [stopped], keeps e isBad⟩
  · refine .inr ?_
    generalize run s = result at ends
    generalize run' s' = result' at ends
    cases ends with
    | ok a states => exact .ok a states
    | error e states => exact .error (f e) states

theorem forM {f : β → EStateM ε σ PUnit} {f' : β → EStateM ε σ' PUnit} {bs : List β}
    (each : ∀ b ∈ bs, Together R bad (f b) (f' b)) : Together R bad (bs.forM f) (bs.forM f') := by
  induction bs with
  | nil => exact together_pure PUnit.unit
  | cons b rest ih =>
    obtain ⟨head, tail⟩ := List.forall_mem_cons.1 each
    exact head.bind fun _ => ih tail

end Together

end

/-! ## Programs -/

section
variable {σ σ' : Type} {R : σ → σ' → Prop} {bad : Stop → Prop}

/-- Runs go together if they part at bad ends only. -/
theorem together_iff_parting {ε α : Type} {bad : ε → Prop} {run : EStateM ε σ α}
    {run' : EStateM ε σ' α} :
    Together R bad run run' ↔ Parting R (fun e _ _ => bad e) run run' :=
  ⟨fun together => ⟨together, fun _ _ _ isBad => isBad⟩, Parting.ends⟩

/-- The steps of two runs go together, and what ends badly in a call still does so outside of it. Of all
events, runs themselves note conditions and calls alone. -/
structure Steps.Together (R : σ → σ' → Prop) (bad : Stop → Prop) (steps : Steps σ)
    (steps' : Steps σ') : Prop where
  lookUp : ∀ env id name,
    Lox.Together R bad (steps.lookUp env id name) (steps'.lookUp env id name)
  assign : ∀ env id name v,
    Lox.Together R bad (steps.assign env id name v) (steps'.assign env id name v)
  define : ∀ env name v, Lox.Together R bad (steps.define env name v) (steps'.define env name v)
  openBlock : ∀ env statements,
    Lox.Together R bad (steps.openBlock env statements) (steps'.openBlock env statements)
  close : ∀ env keyword params body name, Lox.Together R bad
    (steps.close env keyword params body name) (steps'.close env keyword params body name)
  bindArguments : ∀ c vs,
    Lox.Together R bad (steps.bindArguments c vs) (steps'.bindArguments c vs)
  callNative : ∀ f vs, Lox.Together R bad (steps.callNative f vs) (steps'.callNative f vs)
  condition : ∀ v, Lox.Together R bad (steps.note (.condition v)) (steps'.note (.condition v))
  called : ∀ f count,
    Lox.Together R bad (steps.note (.called f count)) (steps'.note (.called f count))
  literal : ∀ id value, steps'.literal id value = steps.literal id value
  inCall : ∀ step e, bad e → bad (e.inCall step)

theorem Steps.Together.parting {steps : Steps σ} {steps' : Steps σ'}
    (agree : steps.Together R bad steps') : steps.Parting R (fun e _ _ => bad e) steps' where
  lookUp env id name := together_iff_parting.1 (agree.lookUp env id name)
  assign env id name v := together_iff_parting.1 (agree.assign env id name v)
  define env name v := together_iff_parting.1 (agree.define env name v)
  openBlock env ss := together_iff_parting.1 (agree.openBlock env ss)
  close env keyword params body name :=
    together_iff_parting.1 (agree.close env keyword params body name)
  bindArguments c vs := together_iff_parting.1 (agree.bindArguments c vs)
  callNative f vs := together_iff_parting.1 (agree.callNative f vs)
  condition v := together_iff_parting.1 (agree.condition v)
  called f count := together_iff_parting.1 (agree.called f count)
  literal := agree.literal
  inCall step e _ _ := agree.inCall step e

/-- Runs of a program go together if their steps do. The second one may have more fuel, if it is bad for
the first to have too little of it. -/
theorem together_interpret {steps : Steps σ} {steps' : Steps σ'}
    (agree : steps.Together R bad steps') {more : Nat} (enough : more = 0 ∨ bad .outOfFuel)
    (n : Nat) (p : Program) :
    Together R bad (interpret steps n p) (interpret steps' (n + more) p) := by
  refine together_iff_parting.2 (parting_interpret agree.parting (enough.imp_right ?_) n p)
  exact fun isBad => ⟨fun _ _ => isBad, fun _ _ _ _ isBad => isBad⟩

end

end Lox
