import Lox.Proofs.Runs.Keeps
import Lox.Run.Eval

/-!
# Runs that part

Two runs of a program can differ in their steps, in their fuel, and in what they keep in their states.
From related states they end in the same way, in related states, unless the first one ends before that.
Its end is for good, since nothing takes it up again, and what it has to do with the state of the second
run lasts, whatever that run still does.
-/

namespace Lox

section
variable {ε σ σ' α β : Type}

/-- Two runs ended in the same way, in related states. -/
inductive EndTogether (R : σ → σ' → Prop) :
    EStateM.Result ε σ α → EStateM.Result ε σ' α → Prop
  | ok (a : α) {s : σ} {s' : σ'} (states : R s s') : EndTogether R (.ok a s) (.ok a s')
  | error (e : ε) {s : σ} {s' : σ'} (states : R s s') : EndTogether R (.error e s) (.error e s')

/-- From related states, two runs end together unless the first one ends alone. What then holds of its
end and of the state of the second run lasts through the second run. -/
structure Parting (R : σ → σ' → Prop) (B : ε → σ → σ' → Prop) (run : EStateM ε σ α)
    (run' : EStateM ε σ' α) : Prop where
  ends : ∀ s s', R s s' →
    (∃ e t, run s = .error e t ∧ B e t (stateLeft (run' s'))) ∨ EndTogether R (run s) (run' s')
  lasts : ∀ e t s', B e t s' → B e t (stateLeft (run' s'))

variable {R : σ → σ' → Prop} {B : ε → σ → σ' → Prop}

theorem parting_pure (a : α) : Parting R B (pure a) (pure a) :=
  ⟨fun _ _ states => .inr (.ok a states), fun _ _ _ ended => ended⟩

theorem parting_throw (e : ε) :
    Parting R B (throw e : EStateM ε σ α) (throw e : EStateM ε σ' α) :=
  ⟨fun _ _ states => .inr (.error e states), fun _ _ _ ended => ended⟩

namespace Parting

theorem bind {run : EStateM ε σ α} {run' : EStateM ε σ' α} {f : α → EStateM ε σ β}
    {f' : α → EStateM ε σ' β} (first : Parting R B run run') (second : ∀ a, Parting R B (f a) (f' a)) :
    Parting R B (run >>= f) (run' >>= f') := by
  have lasts (e : ε) (t : σ) (s' : σ') (ended : B e t (stateLeft (run' s'))) :
      B e t (stateLeft ((run' >>= f') s')) := by
    cases ran' : run' s' with
    | ok a t' =>
      rw [ran'] at ended
      rw [run_bind_of_ok ran']
      exact (second a).lasts e t t' ended
    | error e' t' =>
      rw [ran'] at ended
      rwa [run_bind_of_error ran']
  refine ⟨fun s s' states => ?_, fun e t s' ended => lasts e t s' (first.lasts e t s' ended)⟩
  rcases first.ends s s' states with ⟨e, t, stopped, ended⟩ | ends
  · exact .inl ⟨e, t, run_bind_of_error stopped, lasts e t s' ended⟩
  · generalize ran : run s = result at ends
    generalize ran' : run' s' = result' at ends
    cases ends with
    | ok a states =>
      rw [run_bind_of_ok ran, run_bind_of_ok ran']
      exact (second a).ends _ _ states
    | error e states =>
      rw [run_bind_of_error ran, run_bind_of_error ran']
      exact .inr (.error e states)

theorem adaptExcept {run : EStateM ε σ α} {run' : EStateM ε σ' α} {f : ε → ε}
    (keeps : ∀ e t s', B e t s' → B (f e) t s') (parting : Parting R B run run') :
    Parting R B (run.adaptExcept f) (run'.adaptExcept f) := by
  have left (s' : σ') : stateLeft (run'.adaptExcept f s') = stateLeft (run' s') := by
    unfold EStateM.adaptExcept
    cases run' s' <;> rfl
  refine ⟨fun s s' states => ?_, fun e t s' ended => left s' ▸ parting.lasts e t s' ended⟩
  rcases parting.ends s s' states with ⟨e, t, stopped, ended⟩ | ends
  · refine .inl ⟨f e, t, ?_, left s' ▸ keeps e t _ ended⟩
    simp only [EStateM.adaptExcept, stopped]
  · refine .inr ?_
    unfold EStateM.adaptExcept
    generalize run s = result at ends
    generalize run' s' = result' at ends
    cases ends with
    | ok a states => exact .ok a states
    | error e states => exact .error (f e) states

theorem mapM {f : β → EStateM ε σ α} {f' : β → EStateM ε σ' α}
    (each : ∀ b, Parting R B (f b) (f' b)) (bs : List β) :
    Parting R B (bs.mapM f) (bs.mapM f') := by
  induction bs with
  | nil => exact parting_pure []
  | cons b rest ih =>
    rw [List.mapM_cons, List.mapM_cons]
    exact (each b).bind fun a => ih.bind fun as => parting_pure (a :: as)

theorem forM {f : β → EStateM ε σ PUnit} {f' : β → EStateM ε σ' PUnit}
    (each : ∀ b, Parting R B (f b) (f' b)) (bs : List β) :
    Parting R B (bs.forM f) (bs.forM f') := by
  induction bs with
  | nil => exact parting_pure PUnit.unit
  | cons b rest ih => exact (each b).bind fun _ => ih

end Parting

end

/-! ## Parts of programs -/

section
variable {σ σ' : Type} {R : σ → σ' → Prop} {B : Stop → σ → σ' → Prop}

open Running

theorem parting_ofResult (line : Int) (result : Except RuntimeError.Cause Value) :
    Parting R B (ofResult line result) (ofResult line result) := by
  cases result with
  | ok v => exact parting_pure v
  | error cause => exact parting_throw _

theorem parting_valueOf (ended : Completion) :
    Parting R B (valueOf ended) (valueOf ended) := by
  cases ended with
  | finished => exact parting_pure _
  | returned v => exact parting_pure v
  | broken | continued => exact parting_throw _

theorem parting_checkArity (arity? : Option Nat) (count : Nat) (line : Int) :
    Parting R B (checkArity arity? count line) (checkArity arity? count line) := by
  cases arity? with
  | none => exact parting_pure ()
  | some arity =>
    rw [checkArity, checkArity]
    split
    · exact parting_pure ()
    · exact parting_throw _

theorem parting_expectFinished (ended : Completion) :
    Parting R B (expectFinished ended) (expectFinished ended) := by
  cases ended with
  | finished => exact parting_pure ()
  | broken | continued | returned => exact parting_throw _

theorem parting_inOrder {f : Stmt → RunningOn σ Completion} {f' : Stmt → RunningOn σ' Completion}
    (each : ∀ s, Parting R B (f s) (f' s)) (statements : List Stmt) :
    Parting R B (inOrder f statements) (inOrder f' statements) := by
  induction statements with
  | nil => exact parting_pure _
  | cons s rest ih =>
    refine (each s).bind fun ended => ?_
    cases ended with
    | finished => exact ih
    | broken | continued | returned => exact parting_pure _

/-- The steps of two runs may part, and the end of the first in a call still has to do with the state of
the second outside of it. Of all events, runs themselves note conditions and calls alone. -/
structure Steps.Parting (R : σ → σ' → Prop) (B : Stop → σ → σ' → Prop) (steps : Steps σ)
    (steps' : Steps σ') : Prop where
  lookUp : ∀ env id name,
    Lox.Parting R B (steps.lookUp env id name) (steps'.lookUp env id name)
  assign : ∀ env id name v,
    Lox.Parting R B (steps.assign env id name v) (steps'.assign env id name v)
  define : ∀ env name v, Lox.Parting R B (steps.define env name v) (steps'.define env name v)
  openBlock : ∀ env statements,
    Lox.Parting R B (steps.openBlock env statements) (steps'.openBlock env statements)
  close : ∀ env keyword params body name, Lox.Parting R B
    (steps.close env keyword params body name) (steps'.close env keyword params body name)
  bindArguments : ∀ c vs,
    Lox.Parting R B (steps.bindArguments c vs) (steps'.bindArguments c vs)
  callNative : ∀ f vs, Lox.Parting R B (steps.callNative f vs) (steps'.callNative f vs)
  condition : ∀ v, Lox.Parting R B (steps.note (.condition v)) (steps'.note (.condition v))
  called : ∀ f count,
    Lox.Parting R B (steps.note (.called f count)) (steps'.note (.called f count))
  literal : ∀ id value, steps'.literal id value = steps.literal id value
  inCall : ∀ step e t s', B e t s' → B (e.inCall step) t s'

/-- Runs with one fuel and with another may part. -/
structure PartingAt (R : σ → σ' → Prop) (B : Stop → σ → σ' → Prop) (steps : Steps σ)
    (steps' : Steps σ') (n n' : Nat) : Prop where
  exec : ∀ env s, Parting R B (exec steps n env s) (exec steps' n' env s)
  rounds : ∀ env condition body increment, Parting R B
    (rounds steps n env condition body increment) (rounds steps' n' env condition body increment)
  eval : ∀ env e, Parting R B (eval steps n env e) (eval steps' n' env e)
  call : ∀ f vs line, Parting R B (call steps n f vs line) (call steps' n' f vs line)
  enter : ∀ c vs, Parting R B (enter steps n c vs) (enter steps' n' c vs)

section
variable {steps : Steps σ} {steps' : Steps σ'} (agree : steps.Parting R B steps') {n n' : Nat}
  (below : PartingAt R B steps steps' n n')
include agree below

private theorem parting_exec (env : Env) (s : Stmt) :
    Parting R B (exec steps (n + 1) env s) (exec steps' (n' + 1) env s) := by
  cases s with
  | expression e => exact (below.eval env e).bind fun _ => parting_pure _
  | declaration name initializer =>
    cases initializer with
    | none => exact (agree.define env name .nil).bind fun _ => parting_pure _
    | some e =>
      exact (below.eval env e).bind fun v =>
        (agree.define env name v).bind fun _ => parting_pure _
  | block statements =>
    exact (agree.openBlock env statements).bind fun inner =>
      parting_inOrder (below.exec inner) statements
  | ifElse condition thenBranch elseBranch =>
    refine (below.eval env condition).bind fun v => (agree.condition v).bind fun _ => ?_
    cases v.truthy with
    | true => exact below.exec env thenBranch
    | false =>
      cases elseBranch with
      | none => exact parting_pure _
      | some s => exact below.exec env s
  | whileLoop condition body increment => exact below.rounds env condition body increment
  | breakLoop | continueLoop => exact parting_pure _
  | returnValue keyword value =>
    cases value with
    | none => exact parting_pure _
    | some e => exact (below.eval env e).bind fun _ => parting_pure _
  | misplaced => exact parting_throw _

omit agree in
private theorem parting_rounds (env : Env) (condition : Expr) (body : Stmt)
    (increment : Option Expr) :
    Parting R B (rounds steps (n + 1) env condition body increment)
      (rounds steps' (n' + 1) env condition body increment) := by
  refine (below.eval env condition).bind fun v => ?_
  cases v.truthy with
  | false => exact parting_pure _
  | true =>
    refine (below.exec env body).bind fun ended => ?_
    cases ended with
    | broken | returned => exact parting_pure _
    | finished | continued =>
      cases increment with
      | none => exact below.rounds env condition body none
      | some e =>
        exact (below.eval env e).bind fun _ => below.rounds env condition body (some e)

private theorem parting_eval (env : Env) (e : Expr) :
    Parting R B (eval steps (n + 1) env e) (eval steps' (n' + 1) env e) := by
  cases e with
  | literal id value =>
    rw [eval, eval, agree.literal]
    exact parting_pure _
  | grouping id inner => exact below.eval env inner
  | unary id operator right =>
    exact (below.eval env right).bind fun _ => parting_ofResult _ _
  | binary id left operator right =>
    exact (below.eval env left).bind fun _ =>
      (below.eval env right).bind fun _ => parting_ofResult _ _
  | logical id left operator right =>
    refine (below.eval env left).bind fun v => ?_
    cases v.settles operator with
    | true => exact parting_pure v
    | false => exact below.eval env right
  | step id left operator =>
    cases left with
    | reference id name =>
      exact (agree.lookUp env id name).bind fun v => (parting_ofResult _ _).bind fun w =>
        (agree.assign env id name w).bind fun _ => parting_pure w
    | _ => exact parting_throw _
  | reference id name => exact agree.lookUp env id name
  | assignment id name value =>
    exact (below.eval env value).bind fun v =>
      (agree.assign env id name v).bind fun _ => parting_pure v
  | call id callee arguments paren =>
    exact (below.eval env callee).bind fun f =>
      (Parting.mapM (below.eval env) arguments).bind fun vs => below.call f vs paren.line
  | lambda id keyword params body name => exact agree.close env keyword params body name
  | misplaced => exact parting_throw _

private theorem parting_call (f : Value) (vs : List Value) (line : Int) :
    Parting R B (call steps (n + 1) f vs line) (call steps' (n' + 1) f vs line) := by
  cases f with
  | closure c =>
    exact (parting_checkArity _ _ _).bind fun _ => (agree.called _ _).bind fun _ =>
      (below.enter c vs).adaptExcept (agree.inCall _)
  | native f =>
    exact (parting_checkArity _ _ _).bind fun _ => (agree.called _ _).bind fun _ =>
      (agree.callNative f vs).adaptExcept (agree.inCall _)
  | nil | bool | num | str => exact parting_throw _

private theorem parting_enter (c : Closure) (vs : List Value) :
    Parting R B (enter steps (n + 1) c vs) (enter steps' (n' + 1) c vs) := by
  refine (agree.bindArguments c vs).bind fun env => ?_
  refine Parting.adaptExcept (agree.inCall _) ?_
  exact (parting_inOrder (below.exec env) c.body).bind parting_valueOf

end

/-- The first run may lack fuel where the second does not. -/
def Unfueled (B : Stop → σ → σ' → Prop) : Prop :=
  (∀ t s', B .outOfFuel t s') ∧ ∀ e t s₁ s₂, B e t s₁ → B e t s₂

theorem Unfueled.parting {α : Type} (unfueled : Unfueled B) (run' : RunningOn σ' α) :
    Lox.Parting R B (throw .outOfFuel) run' :=
  ⟨fun s _ _ => .inl ⟨_, s, rfl, unfueled.1 _ _⟩, fun _ _ _ => unfueled.2 _ _ _ _⟩

/-- The second run may have more fuel, if the first may lack it. -/
theorem partingAt {steps : Steps σ} {steps' : Steps σ'} (agree : steps.Parting R B steps')
    {more : Nat} (enough : more = 0 ∨ Unfueled B) (n : Nat) :
    PartingAt R B steps steps' n (n + more) := by
  induction n with
  | zero =>
    rcases enough with rfl | unfueled
    · constructor <;> intros <;> exact parting_throw _
    · constructor <;> intros <;> exact unfueled.parting _
  | succ n ih =>
    rw [Nat.add_right_comm]
    exact ⟨parting_exec agree ih, parting_rounds ih, parting_eval agree ih,
      parting_call agree ih, parting_enter agree ih⟩

/-- Runs of a program part only as their steps do. -/
theorem parting_interpret {steps : Steps σ} {steps' : Steps σ'}
    (agree : steps.Parting R B steps') {more : Nat} (enough : more = 0 ∨ Unfueled B)
    (n : Nat) (p : Program) :
    Parting R B (interpret steps n p) (interpret steps' (n + more) p) := by
  refine Parting.forM (fun s => ?_) p
  exact ((partingAt agree enough n).exec .global s).bind parting_expectFinished

end

end Lox
