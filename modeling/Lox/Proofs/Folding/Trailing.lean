import Lox.Proofs.Alike.Values
import Lox.Proofs.Runs.Keeps

/-!
# Runs that need more fuel

A run can end in the same way as another one and need more fuel for that. What it does is given for
each amount of fuel, so that all of its parts can have what they need. As it never needs less, both
end or neither does.
-/

namespace Lox

variable {σ σ' α α' β β' : Type}

/-- A run ended for lack of fuel. -/
def OutOfFuel (result : EStateM.Result Stop σ α) : Prop := ∃ m, result = .error .outOfFuel m

/-- All runs from a state end in one way if they do not lack fuel, and with enough of it they end.
-/
def Settles (runs : Nat → RunningOn σ α) (m : σ) (result : EStateM.Result Stop σ α) : Prop :=
  (∀ k, OutOfFuel (runs k m) ∨ runs k m = result) ∧ ∃ least, ∀ k ≥ least, runs k m = result

/-- Two runs ended in the same way and not for lack of fuel, in related states. Frames may have been
added. -/
inductive SameEnd (R : List Ref → σ → σ' → Prop) (Q : List Ref → α → α' → Prop) (w : List Ref) :
    EStateM.Result Stop σ α → EStateM.Result Stop σ' α' → Prop
  | ok {a : α} {a' : α'} {m : σ} {m' : σ'} (w' : List Ref) (further : w <+: w')
      (states : R w' m m') (values : Q w' a a') : SameEnd R Q w (.ok a m) (.ok a' m')
  | error {e : Stop} {m : σ} {m' : σ'} (ended : e ≠ .outOfFuel) (w' : List Ref)
      (further : w <+: w') (states : R w' m m') : SameEnd R Q w (.error e m) (.error e m')

/-- From related states, runs with different fuel end as another run does, or that one lacks fuel
and they lack it with an amount up to the given one as well. -/
def Trails (R : List Ref → σ → σ' → Prop) (Q : List Ref → α → α' → Prop) (n : Nat) (w : List Ref)
    (run : RunningOn σ α) (runs : Nat → RunningOn σ' α') : Prop :=
  ∀ m m', R w m m' → (OutOfFuel (run m) ∧ ∀ k ≤ n, OutOfFuel (runs k m')) ∨
    ∃ result', Settles runs m' result' ∧ SameEnd R Q w (run m) result'

variable {R : List Ref → σ → σ' → Prop} {P : List Ref → α → α' → Prop}
  {Q : List Ref → β → β' → Prop} {n : Nat} {w w' : List Ref}

theorem SameEnd.earlier {result : EStateM.Result Stop σ α} {result' : EStateM.Result Stop σ' α'}
    (further : w <+: w') (same : SameEnd R P w' result result') : SameEnd R P w result result' := by
  cases same with
  | ok w'' further' states values => exact .ok w'' (further.trans further') states values
  | error ended w'' further' states => exact .error ended w'' (further.trans further') states

/-- What takes no fuel ends in one way. -/
theorem settles_const (run : RunningOn σ α) (m : σ) : Settles (fun _ => run) m (run m) :=
  ⟨fun _ => .inr rfl, 0, fun _ _ => rfl⟩

/-- Steps from related states that end in the same way. -/
theorem trails_step {run : RunningOn σ α} {run' : RunningOn σ' α'}
    (ends : ∀ m m', R w m m' → SameEnd R P w (run m) (run' m')) :
    Trails R P n w run fun _ => run' :=
  fun m m' states => .inr ⟨run' m', settles_const run' m', ends m m' states⟩

theorem trails_pure {a : α} {a' : α'} (values : P w a a') :
    Trails R P n w (pure a) fun _ => pure a' :=
  trails_step fun _ _ states => .ok w List.prefix_rfl states values

theorem trails_throw {e : Stop} (ended : e ≠ .outOfFuel) :
    Trails R P n w (throw e) fun _ => throw e :=
  trails_step fun _ _ states => .error ended w List.prefix_rfl states

theorem trails_fail (cause : RuntimeError.Cause) (line : Option Int) :
    Trails R P n w (Running.fail cause line) fun _ => Running.fail cause line :=
  trails_throw nofun

/-- Both runs go on as their states tell. -/
theorem trails_get {f : σ → RunningOn σ α} {f' : Nat → σ' → RunningOn σ' α'}
    (each : ∀ m m', R w m m' → Trails R P n w (f m) fun k => f' k m') :
    Trails R P n w (get >>= f) fun k => get >>= f' k :=
  fun m m' states => each m m' states m m' states

namespace Trails

theorem mono {n' : Nat} {run : RunningOn σ α} {runs : Nat → RunningOn σ' α'} (less : n' ≤ n)
    (trails : Trails R P n w run runs) : Trails R P n' w run runs := by
  intro m m' states
  rcases trails m m' states with ⟨out, slower⟩ | ended
  · exact .inl ⟨out, fun k few => slower k (Nat.le_trans few less)⟩
  · exact .inr ended

/-- Runs without fuel are behind every other run that has none either. -/
theorem without_fuel {runs : Nat → RunningOn σ' α'} (none : runs 0 = throw .outOfFuel) :
    Trails R P 0 w (throw .outOfFuel) runs := by
  intro m m' _
  refine .inl ⟨⟨m, rfl⟩, fun k few => ?_⟩
  rw [Nat.le_zero.1 few, none]
  exact ⟨m', rfl⟩

/-- Runs may take one more amount of fuel than they did. -/
theorem delayed {run : RunningOn σ α} {runs : Nat → RunningOn σ' α'}
    (none : runs 0 = throw .outOfFuel) (trails : Trails R P n w run fun k => runs (k + 1)) :
    Trails R P (n + 1) w run runs := by
  intro m m' states
  have out : OutOfFuel (runs 0 m') := by
    rw [none]
    exact ⟨m', rfl⟩
  rcases trails m m' states with ⟨lacks, slower⟩ | ⟨result', settles, same⟩
  · refine .inl ⟨lacks, fun k few => ?_⟩
    cases k with
    | zero => exact out
    | succ k => exact slower k (Nat.le_of_succ_le_succ few)
  · obtain ⟨least, enough⟩ := settles.2
    refine .inr ⟨result', ⟨fun k => ?_, least + 1, fun k more => ?_⟩, same⟩
    · cases k with
      | zero => exact .inl out
      | succ k => exact settles.1 k
    · cases k with
      | zero => omega
      | succ k => exact enough k (Nat.le_of_succ_le_succ more)

theorem bind {run : RunningOn σ α} {runs : Nat → RunningOn σ' α'} {f : α → RunningOn σ β}
    {f' : Nat → α' → RunningOn σ' β'} (first : Trails R P n w run runs)
    (second : ∀ w', w <+: w' → ∀ a a', P w' a a' → Trails R Q n w' (f a) fun k => f' k a') :
    Trails R Q n w (run >>= f) fun k => runs k >>= f' k := by
  intro m m' states
  rcases first m m' states with ⟨⟨m₁, out⟩, slower⟩ | ⟨result', settles, same⟩
  · refine .inl ⟨⟨m₁, run_bind_of_error out⟩, fun k few => ?_⟩
    obtain ⟨m₁', out'⟩ := slower k few
    exact ⟨m₁', run_bind_of_error out'⟩
  · obtain ⟨least, enough⟩ := settles.2
    generalize ran : run m = result at same
    cases same with
    | @ok a a' m₁ m₁' w' further states values =>
      rcases second w' further a a' values m₁ m₁' states with ⟨out, slower⟩ | ⟨end', settles', same⟩
      · rw [run_bind_of_ok ran]
        refine .inl ⟨out, fun k few => ?_⟩
        rcases settles.1 k with ⟨m₂', out'⟩ | ran'
        · exact ⟨m₂', run_bind_of_error out'⟩
        · show OutOfFuel ((runs k >>= f' k) m')
          rw [run_bind_of_ok ran']
          exact slower k few
      · rw [run_bind_of_ok ran]
        obtain ⟨least', enough'⟩ := settles'.2
        refine .inr ⟨end', ⟨fun k => ?_, max least least', fun k more => ?_⟩, same.earlier further⟩
        · rcases settles.1 k with ⟨m₂', out'⟩ | ran'
          · exact .inl ⟨m₂', run_bind_of_error out'⟩
          · show OutOfFuel ((runs k >>= f' k) m') ∨ (runs k >>= f' k) m' = end'
            rw [run_bind_of_ok ran']
            exact settles'.1 k
        · exact (run_bind_of_ok (enough k (by omega))).trans (enough' k (by omega))
    | @error e m₁ m₁' ended w' further states =>
      rw [run_bind_of_error ran]
      refine .inr ⟨.error e m₁', ⟨fun k => ?_, least, fun k more => ?_⟩,
        .error ended w' further states⟩
      · rcases settles.1 k with ⟨m₂', out'⟩ | ran'
        · exact .inl ⟨m₂', run_bind_of_error out'⟩
        · exact .inr (run_bind_of_error ran')
      · exact run_bind_of_error (enough k more)

/-- The first run alone may go on, without a step. -/
theorem bind_left {S : List Ref → β → α' → Prop} {run : RunningOn σ α}
    {runs : Nat → RunningOn σ' α'} {f : α → RunningOn σ β} (first : Trails R P n w run runs)
    (second : ∀ w', w <+: w' → ∀ a a', P w' a a' → Trails R S n w' (f a) fun _ => pure a') :
    Trails R S n w (run >>= f) runs := by
  have both : Trails R S n w (run >>= f) fun k => runs k >>= pure := first.bind second
  simpa only [bind_pure] using both

/-- The runs with different fuel alone may go on. -/
theorem bind_right {S : List Ref → α → β' → Prop} {run : RunningOn σ α}
    {runs : Nat → RunningOn σ' α'} {f' : Nat → α' → RunningOn σ' β'}
    (first : Trails R P n w run runs)
    (second : ∀ w', w <+: w' → ∀ a a', P w' a a' → Trails R S n w' (pure a) fun k => f' k a') :
    Trails R S n w run fun k => runs k >>= f' k := by
  have both : Trails R S n w (run >>= pure) fun k => runs k >>= f' k := first.bind second
  rwa [bind_pure] at both

theorem imp {P' : List Ref → α → α' → Prop} {run : RunningOn σ α} {runs : Nat → RunningOn σ' α'}
    (implies : ∀ w', w <+: w' → ∀ a a', P w' a a' → P' w' a a') (trails : Trails R P n w run runs) :
    Trails R P' n w run runs := by
  intro m m' states
  rcases trails m m' states with lacks | ⟨result', settles, same⟩
  · exact .inl lacks
  · refine .inr ⟨result', settles, ?_⟩
    generalize run m = result at same
    cases same with
    | ok w' further states values => exact .ok w' further states (implies w' further _ _ values)
    | error ended w' further states => exact .error ended w' further states

private theorem adaptExcept_of_error {run : RunningOn σ α} {m m₁ : σ} {e : Stop} (f : Stop → Stop)
    (ran : run m = .error e m₁) : run.adaptExcept f m = .error (f e) m₁ := by
  unfold EStateM.adaptExcept
  rw [ran]

private theorem adaptExcept_of_ok {run : RunningOn σ α} {m m₁ : σ} {a : α} (f : Stop → Stop)
    (ran : run m = .ok a m₁) : run.adaptExcept f m = .ok a m₁ := by
  unfold EStateM.adaptExcept
  rw [ran]

/-- What ended both runs may be told in another way, but not a lack of fuel. -/
theorem adaptExcept {f : Stop → Stop} (keeps : f .outOfFuel = .outOfFuel)
    (stays : ∀ e, e ≠ .outOfFuel → f e ≠ .outOfFuel) {run : RunningOn σ α}
    {runs : Nat → RunningOn σ' α'} (trails : Trails R P n w run runs) :
    Trails R P n w (run.adaptExcept f) fun k => (runs k).adaptExcept f := by
  have lacks {τ γ : Type} {run : RunningOn τ γ} {m : τ} (out : OutOfFuel (run m)) :
      OutOfFuel (run.adaptExcept f m) := by
    obtain ⟨m₁, out⟩ := out
    exact ⟨m₁, by rw [adaptExcept_of_error f out, keeps]⟩
  intro m m' states
  rcases trails m m' states with ⟨out, slower⟩ | ⟨result', settles, same⟩
  · exact .inl ⟨lacks out, fun k few => lacks (slower k few)⟩
  · obtain ⟨least, enough⟩ := settles.2
    generalize ran : run m = result at same
    cases same with
    | @ok a a' m₁ m₁' w' further states values =>
      rw [adaptExcept_of_ok f ran]
      refine .inr ⟨.ok a' m₁', ⟨fun k => ?_, least, fun k more => ?_⟩, .ok w' further states values⟩
      · exact (settles.1 k).imp lacks (adaptExcept_of_ok f)
      · exact adaptExcept_of_ok f (enough k more)
    | @error e m₁ m₁' ended w' further states =>
      rw [adaptExcept_of_error f ran]
      refine .inr ⟨.error (f e) m₁', ⟨fun k => ?_, least, fun k more => ?_⟩,
        .error (stays e ended) w' further states⟩
      · exact (settles.1 k).imp lacks (adaptExcept_of_error f)
      · exact adaptExcept_of_error f (enough k more)

theorem inCall (step : CallStep) {run : RunningOn σ α} {runs : Nat → RunningOn σ' α'}
    (trails : Trails R P n w run runs) :
    Trails R P n w (Running.inCall step run) fun k => Running.inCall step (runs k) := by
  refine trails.adaptExcept rfl fun e ended => ?_
  cases e with
  | outOfFuel => exact absurd rfl ended
  | _ => exact nofun

end Trails

/-! ## Ends -/

section
variable {run : Nat → RunningOn σ α} {runs : Nat → RunningOn σ' α'} {m : σ} {m' : σ'}
  (trails : ∀ fuel, Trails R P fuel w (run fuel) runs) (states : R w m m')
include trails states

/-- If runs are behind others with every amount of fuel, an end of those is one of the former. -/
theorem exists_sameEnd {fuel : Nat} (ended : ¬ OutOfFuel (run fuel m)) :
    ∃ fuel', SameEnd R P w (run fuel m) (runs fuel' m') := by
  rcases trails fuel m m' states with ⟨out, _⟩ | ⟨result', settles, same⟩
  · exact absurd out ended
  · obtain ⟨least, enough⟩ := settles.2
    exact ⟨least, by rwa [enough least least.le_refl]⟩

/-- If runs are behind others with every amount of fuel, those have ended before they end. -/
theorem sameEnd_of_ended {fuel : Nat} (ended : ¬ OutOfFuel (runs fuel m')) :
    SameEnd R P w (run fuel m) (runs fuel m') := by
  rcases trails fuel m m' states with ⟨_, slower⟩ | ⟨result', settles, same⟩
  · exact absurd (slower fuel fuel.le_refl) ended
  · rcases settles.1 fuel with out | ran
    · exact absurd out ended
    · rwa [ran]

end

/-! ## Steps that see the console alone -/

/-- Machines are related that have the same console. What they note for debugging is left open. -/
structure SharesConsole (R : List Ref → Machine → Machine → Prop) : Prop where
  same : ∀ {w m m'}, R w m m' → m'.console = m.console
  withConsole : ∀ {w m m'} (console : Console), R w m m' → R w { m with console } { m' with console }
  withTraces : ∀ {w m m'} (trace trace' : Trace),
    R w m m' → R w { m with trace } { m' with trace := trace' }

namespace SharesConsole

variable {R : List Ref → Machine → Machine → Prop} (shares : SharesConsole R)
include shares

theorem trails_note (e e' : Event) :
    Trails R (fun _ _ _ => True) n w (Running.note e) fun _ => Running.note e' :=
  trails_step fun m m' states =>
    .ok w List.prefix_rfl (shares.withTraces (m.trace.note e) (m'.trace.note e') states) trivial

private theorem trails_modifyConsole (f : Console → Console) :
    Trails R (fun _ _ _ => True) n w (Running.modifyConsole f) fun _ => Running.modifyConsole f := by
  refine trails_step fun m m' states => .ok w List.prefix_rfl ?_ trivial
  dsimp only
  rw [shares.same states]
  exact shares.withConsole (f m.console) states

private theorem trails_writeLine (text : String) :
    Trails R (fun _ _ _ => True) n w (Running.writeLine text) fun _ => Running.writeLine text := by
  refine trails_get fun m m' states => ?_
  rw [shares.same states]
  cases m.console.writable with
  | true =>
    simp only [if_true]
    exact shares.trails_modifyConsole _
  | false => exact trails_fail .writing none

private theorem trails_readLine :
    Trails R (fun _ line line' => line' = line) n w Running.readLine fun _ => Running.readLine := by
  refine trails_get fun m m' states => ?_
  dsimp only
  rw [shares.same states]
  cases m.console.readFails with
  | true => exact trails_fail .reading none
  | false =>
    cases m.console.unread with
    | nil => exact trails_pure rfl
    | cons line rest => exact (shares.trails_modifyConsole _).bind fun _ _ _ _ _ => trails_pure rfl

private theorem trails_readClock :
    Trails R (fun _ x x' => x' = x) n w Running.readClock fun _ => Running.readClock := by
  refine trails_get fun m m' states => ?_
  dsimp only
  rw [shares.same states]
  exact (shares.trails_modifyConsole _).bind fun _ _ _ _ _ => trails_pure rfl

/-- A native function sees the console, and its arguments as texts. -/
theorem trails_callNative (f : Native) {vs vs' : List Value}
    (texts : vs'.map (·.text) = vs.map (·.text)) :
    Trails R (fun _ v v' => v' = v ∧ v.Plain) n w (Running.callNative f vs)
      fun _ => Running.callNative f vs' := by
  cases f with
  | clock =>
    refine shares.trails_readClock.bind fun w' further x x' same => ?_
    rw [same]
    exact trails_pure ⟨rfl, Value.plain_ofLiteral (.num x)⟩
  | print =>
    simp only [Running.callNative]
    rw [texts]
    exact (shares.trails_writeLine _).bind fun _ _ _ _ _ =>
      trails_pure ⟨rfl, Value.plain_ofLiteral .nil⟩
  | input =>
    refine shares.trails_readLine.bind fun w' further line line' same => ?_
    rw [same]
    cases line with
    | none => exact trails_pure ⟨rfl, Value.plain_ofLiteral .nil⟩
    | some line => exact trails_pure ⟨rfl, Value.plain_ofLiteral (.str (String.ofList line))⟩

end SharesConsole

/-! ## Checks -/

theorem trails_checkArity (arity? : Option Nat) (count : Nat) (line : Int) :
    Trails R (fun _ _ _ => True) n w (Running.checkArity arity? count line)
      fun _ => Running.checkArity arity? count line := by
  cases arity? with
  | none => exact trails_pure trivial
  | some arity =>
    by_cases right : count = arity
    · simp only [Running.checkArity, right, if_true]
      exact trails_pure trivial
    · simp only [Running.checkArity, right, if_false]
      exact trails_fail _ (some line)

end Lox
