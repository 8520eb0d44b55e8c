import Lox.Proofs.Calls.Recording
import Lox.Proofs.Safety.Outcomes

/-!
# Errors are told the calls they are raised in

An error that ends a run has passed every call that was open when it was raised, and no other. A run
whose open calls are recorded goes on and ends as the run itself does, and where it ends with an error,
the calls that are open in its last state, outermost first, are those that the error was placed.
-/

namespace Lox

open Running

/-! ## Errors and the calls they are raised in -/

/-- The console could not be written or read. -/
def RuntimeError.Cause.IsConsole : RuntimeError.Cause → Prop
  | writing | reading => True
  | _ => False

/-- What an error is told of a call of a function of a program. -/
def Activation.steps (a : Activation) : List CallStep :=
  [.line a.line, .calling a.function.name a.function.keyword.line]

/-- What an error is told of open calls. -/
def Recording.context (activations : List Activation) (native : Option Int) : List CallStep :=
  activations.flatMap Activation.steps ++ (native.toList.map .line)

/-- An error was raised in the given calls. It is an error of the console if and only if the
innermost of them is one of a native function, and it has no line only then or where a statement has
nothing to leave. -/
structure RuntimeError.RaisedIn (activations : List Activation) (native : Option Int)
    (e : RuntimeError) : Prop where
  context : e.context = Recording.context activations native
  console : native.isSome ↔ e.cause.IsConsole
  noLine : native.isSome → e.line = none
  line : native = none → ¬ e.cause.IsStray → e.line ≠ none

/-- An error without its calls. -/
def RuntimeError.bare (e : RuntimeError) : RuntimeError := { e with context := [] }

theorem Recording.context_cons (a : Activation) (activations : List Activation)
    (native : Option Int) :
    context (a :: activations) native = a.steps ++ context activations native := rfl

/-! ## Recorded runs -/

section
variable {σ α β : Type} {activations : List Activation}

/-- How a recorded run ends, in the given calls, when the run itself ends as it does. -/
inductive Recording.EndsAs (activations : List Activation) :
    EStateM.Result Stop σ α → EStateM.Result Stop (Recording σ) α → Prop
  | ok (a : α) (s : σ) : EndsAs activations (.ok a s) (.ok a ⟨s, activations, none⟩)
  | error {e : RuntimeError} {inner : List Activation} {native : Option Int}
      (raised : e.RaisedIn inner native) (s : σ) :
      EndsAs activations (.error (.error e) s)
        (.error (.error e.bare) ⟨s, activations ++ inner, native⟩)
  | stop {stop : Stop} (noError : ∀ e, stop ≠ .error e) (r : Recording σ) :
      EndsAs activations (.error stop r.state) (.error stop r)

/-- An error that is raised in no further call of a function of a program. -/
theorem Recording.EndsAs.error_here {e : RuntimeError} {native : Option Int}
    (raised : e.RaisedIn [] native) (s : σ) :
    EndsAs activations (.error (.error e) s : EStateM.Result Stop σ α)
      (.error (.error e.bare) ⟨s, activations, native⟩) := by
  have none : activations ++ [] = activations := List.append_nil activations
  have ends : EndsAs activations (.error (.error e) s : EStateM.Result Stop σ α)
    (.error (.error e.bare) ⟨s, activations ++ [], native⟩) := .error raised s
  rw [none] at ends
  exact ends

/-- In any open calls of functions of a program, a recorded run ends as the run itself. -/
def Recorded (run : RunningOn σ α) (recorded : RunningOn (Recording σ) α) : Prop :=
  ∀ activations s, Recording.EndsAs activations (run s) (recorded ⟨s, activations, none⟩)

theorem recorded_pure (a : α) : Recorded (pure a : RunningOn σ α) (pure a) :=
  fun _ s => .ok a s

theorem recorded_throw {stop : Stop} (noError : ∀ e, stop ≠ .error e) :
    Recorded (throw stop : RunningOn σ α) (throw stop) :=
  fun activations s => .stop noError ⟨s, activations, none⟩

theorem recorded_outOfFuel : Recorded (throw .outOfFuel : RunningOn σ α) (throw .outOfFuel) :=
  recorded_throw nofun

theorem recorded_fault (f : Fault) :
    Recorded (throw (.fault f) : RunningOn σ α) (throw (.fault f)) :=
  recorded_throw nofun

/-- An error that is raised outside of native functions. -/
theorem RuntimeError.raisedIn_nil {cause : RuntimeError.Cause} {line : Option Int}
    (notConsole : ¬ cause.IsConsole) (placed : ¬ cause.IsStray → line ≠ none) :
    RaisedIn [] none ⟨cause, line, []⟩ where
  context := rfl
  console := by simp [notConsole]
  noLine := nofun
  line _ := placed

theorem recorded_fail {cause : RuntimeError.Cause} {line : Option Int}
    (notConsole : ¬ cause.IsConsole) (placed : ¬ cause.IsStray → line ≠ none) :
    Recorded (fail cause line : RunningOn σ α) (fail cause line) :=
  fun _ s => .error_here (RuntimeError.raisedIn_nil notConsole placed) s

theorem Recorded.bind {run : RunningOn σ α} {recorded : RunningOn (Recording σ) α}
    {f : α → RunningOn σ β} {g : α → RunningOn (Recording σ) β} (first : Recorded run recorded)
    (second : ∀ a, Recorded (f a) (g a)) : Recorded (run >>= f) (recorded >>= g) := by
  intro activations s
  have ends := first activations s
  cases ran : run s with
  | ok a s' =>
    rw [ran] at ends
    generalize isEnd : recorded ⟨s, activations, none⟩ = result at ends
    cases ends
    rw [run_bind_of_ok ran, run_bind_of_ok isEnd]
    exact second a activations s'
  | error stop s' =>
    rw [ran] at ends
    generalize isEnd : recorded ⟨s, activations, none⟩ = result at ends
    rw [run_bind_of_error ran]
    cases ends with
    | error raised =>
      rw [run_bind_of_error isEnd]
      exact .error raised _
    | stop noError r =>
      rw [run_bind_of_error isEnd]
      exact .stop noError r

theorem recorded_mapM {f : β → RunningOn σ α} {g : β → RunningOn (Recording σ) α}
    (each : ∀ b, Recorded (f b) (g b)) (bs : List β) : Recorded (bs.mapM f) (bs.mapM g) := by
  induction bs with
  | nil => exact recorded_pure []
  | cons b rest ih =>
    rw [List.mapM_cons, List.mapM_cons]
    exact (each b).bind fun _ => ih.bind fun _ => recorded_pure _

theorem recorded_forM {f : β → RunningOn σ PUnit} {g : β → RunningOn (Recording σ) PUnit}
    (each : ∀ b, Recorded (f b) (g b)) (bs : List β) : Recorded (bs.forM f) (bs.forM g) := by
  induction bs with
  | nil => exact recorded_pure _
  | cons b rest ih => exact (each b).bind fun _ => ih

theorem recorded_inOrder {f : Stmt → RunningOn σ Completion}
    {g : Stmt → RunningOn (Recording σ) Completion} (each : ∀ s, Recorded (f s) (g s))
    (statements : List Stmt) : Recorded (inOrder f statements) (inOrder g statements) := by
  induction statements with
  | nil => exact recorded_pure _
  | cons s rest ih =>
    refine (each s).bind fun ended => ?_
    cases ended with
    | finished => exact ih
    | broken | continued | returned => exact recorded_pure _

/-! ## Runs that stop as is known -/

/-- Whatever stops a run is as given. -/
def StopsAs (P : Stop → Prop) (run : RunningOn σ α) : Prop :=
  ∀ s stop s', run s = .error stop s' → P stop

section
variable {P : Stop → Prop}

theorem StopsAs.of_ok {run : RunningOn σ α} (never : ∀ s, ∃ a s', run s = .ok a s') :
    StopsAs P run := by
  intro s stop s' ran
  obtain ⟨a, s'', isOk⟩ := never s
  rw [isOk] at ran
  cases ran

theorem stopsAs_throw {stop : Stop} (wanted : P stop) :
    StopsAs P (throw stop : RunningOn σ α) := by
  intro s stop' s' ran
  cases ran
  exact wanted

theorem StopsAs.bind {run : RunningOn σ α} {f : α → RunningOn σ β} (first : StopsAs P run)
    (second : ∀ a, StopsAs P (f a)) : StopsAs P (run >>= f) := by
  intro s stop s' ran
  cases done : run s with
  | ok a s'' =>
    rw [run_bind_of_ok done] at ran
    exact second a s'' stop s' ran
  | error stop' s'' =>
    rw [run_bind_of_error done] at ran
    cases ran
    exact first s stop s' done

end

/-- An error that was raised in no call, on a line, and is none of the console. -/
def Stop.IsPlaced : Stop → Prop
  | .error e => e.context = [] ∧ ¬ e.cause.IsConsole ∧ e.line ≠ none
  | _ => True

/-- An error of the console, which has no line. -/
def Stop.IsOfConsole : Stop → Prop
  | .error e => e.context = [] ∧ e.cause.IsConsole ∧ e.line = none
  | _ => False

/-! ## Calls -/

/-- An error that leaves a call of a function of a program is told the call. -/
theorem RuntimeError.RaisedIn.inActivation {e : RuntimeError} {inner : List Activation}
    {native : Option Int} (raised : e.RaisedIn inner native) (a : Activation) :
    RaisedIn (a :: inner) native { e with context := a.steps ++ e.context } where
  context := by rw [Recording.context_cons, raised.context]
  console := raised.console
  noLine := raised.noLine
  line := raised.line

/-- A run in a call is told the call, and records it as long as it is open. -/
theorem Recorded.inActivation {run : RunningOn σ α} {recorded : RunningOn (Recording σ) α}
    (same : Recorded run recorded) (a : Activation) :
    Recorded (inCall (.line a.line) (inCall (.calling a.function.name a.function.keyword.line) run))
      (Recording.inActivation a recorded) := by
  intro activations s
  have ends := same (activations ++ [a]) s
  have opened : (modify fun r => { r with activations := r.activations ++ [a] } :
      RunningOn (Recording σ) Unit) ⟨s, activations, none⟩ =
        .ok () ⟨s, activations ++ [a], none⟩ := rfl
  rw [Recording.inActivation, run_bind_of_ok opened]
  unfold inCall EStateM.adaptExcept
  generalize isEnd : recorded ⟨s, activations ++ [a], none⟩ = result at ends
  generalize run s = plain at ends ⊢
  cases ends with
  | ok x s' =>
    rw [run_bind_of_ok isEnd]
    have closed : (activations ++ [a]).dropLast = activations := List.dropLast_concat
    show Recording.EndsAs activations _ (.ok x ⟨s', (activations ++ [a]).dropLast, none⟩)
    rw [closed]
    exact .ok x s'
  | error raised s' =>
    rw [run_bind_of_error isEnd, List.append_assoc]
    exact .error (raised.inActivation a) s'
  | @stop stop noError r =>
    rw [run_bind_of_error isEnd]
    cases stop with
    | error e => exact absurd rfl (noError e)
    | fault => exact .stop noError r
    | outOfFuel => exact .stop noError r

/-- What does not fail in a call might as well be done before it. -/
theorem inCall_bind_of_ok {run : RunningOn σ α} {f : α → RunningOn σ β} {a : α} {s s' : σ}
    (first : run s = .ok a s') (step : CallStep) :
    inCall step (run >>= f) s = inCall step (f a) s' := by
  unfold inCall EStateM.adaptExcept
  rw [run_bind_of_ok first]

theorem Recording.inActivation_bind_of_ok {run : RunningOn σ α}
    {f : α → RunningOn (Recording σ) β} {a : α} {s s' : σ} (first : run s = .ok a s')
    (call : Activation) :
    inActivation call (lift run >>= f) ⟨s, activations, none⟩ =
      inActivation call (f a) ⟨s', activations, none⟩ := by
  have lifted : lift run ⟨s, activations ++ [call], none⟩ =
      .ok a ⟨s', activations ++ [call], none⟩ := by
    simp only [lift, first]
  have opened (s : σ) : (modify fun r => { r with activations := r.activations ++ [call] } :
      RunningOn (Recording σ) Unit) ⟨s, activations, none⟩ =
        .ok () ⟨s, activations ++ [call], none⟩ := rfl
  rw [inActivation, inActivation, run_bind_of_ok (opened s), run_bind_of_ok (opened s'), bind_assoc,
    run_bind_of_ok lifted]

/-- A call of a native function is told to an error of the console. -/
theorem recorded_native {run : RunningOn σ α} (line : Int)
    (ofConsole : StopsAs Stop.IsOfConsole run) :
    Recorded (inCall (.line line) run) (Recording.inNative line (Recording.lift run)) := by
  intro activations s
  have opened : (modify fun r => { r with native := some line } :
      RunningOn (Recording σ) Unit) ⟨s, activations, none⟩ =
        .ok () ⟨s, activations, some line⟩ := rfl
  rw [Recording.inNative, run_bind_of_ok opened]
  unfold inCall EStateM.adaptExcept
  cases ran : run s with
  | ok x s' =>
    have lifted : Recording.lift run ⟨s, activations, some line⟩ =
        .ok x ⟨s', activations, some line⟩ := by
      simp only [Recording.lift, ran]
    rw [run_bind_of_ok lifted]
    exact .ok x s'
  | error stop s' =>
    have lifted : Recording.lift run ⟨s, activations, some line⟩ =
        .error stop ⟨s', activations, some line⟩ := by
      simp only [Recording.lift, ran]
    rw [run_bind_of_error lifted]
    have stopped := ofConsole s stop s' ran
    cases stop with
    | error e =>
      obtain ⟨cause, errorLine, context⟩ := e
      obtain ⟨rfl, isConsole, rfl⟩ := stopped
      have raised : RuntimeError.RaisedIn [] (some line) ⟨cause, none, [.line line]⟩ :=
        ⟨rfl, by simp [isConsole], fun _ => rfl, nofun⟩
      exact .error_here raised s'
    | fault | outOfFuel => exact stopped.elim

/-! ## Parts of runs -/

/-- A run whose errors are raised outside of calls. -/
theorem recorded_lift {run : RunningOn σ α} (placed : StopsAs Stop.IsPlaced run) :
    Recorded run (Recording.lift run) := by
  intro activations s
  unfold Recording.lift
  dsimp only
  cases ran : run s with
  | ok a s' => exact .ok a s'
  | error stop s' =>
    cases stop with
    | error e =>
      obtain ⟨cause, line, context⟩ := e
      obtain ⟨rfl, notConsole, hasLine⟩ := placed s _ s' ran
      exact .error_here (RuntimeError.raisedIn_nil notConsole fun _ => hasLine) s'
    | fault f =>
      have noError : ∀ e, Stop.fault f ≠ .error e := nofun
      exact .stop noError ⟨s', activations, none⟩
    | outOfFuel =>
      have noError : ∀ e, Stop.outOfFuel ≠ .error e := nofun
      exact .stop noError ⟨s', activations, none⟩

theorem recorded_checkArity (arity? : Option Nat) (count : Nat) (line : Int) :
    Recorded (checkArity arity? count line : RunningOn σ Unit) (checkArity arity? count line) := by
  cases arity? with
  | none => exact recorded_pure ()
  | some arity =>
    unfold checkArity
    by_cases same : count = arity
    · simp only [same, if_true]
      exact recorded_pure ()
    · simp only [same, if_false]
      exact recorded_fail not_false (fun _ => Option.some_ne_none line)

theorem recorded_valueOf (c : Completion) :
    Recorded (valueOf c : RunningOn σ Value) (valueOf c) := by
  cases c with
  | returned v => exact recorded_pure v
  | finished => exact recorded_pure Value.nil
  | broken | continued => exact recorded_fail not_false (fun inPlace => absurd trivial inPlace)

theorem recorded_expectFinished (c : Completion) :
    Recorded (expectFinished c : RunningOn σ Unit) (expectFinished c) := by
  cases c with
  | finished => exact recorded_pure ()
  | broken | continued | returned =>
    exact recorded_fail not_false (fun inPlace => absurd trivial inPlace)

/-! ## Operators -/

/-- A result that does not fail for the console. -/
def OffConsole : Except RuntimeError.Cause Value → Prop
  | .ok _ => True
  | .error cause => ¬ cause.IsConsole

theorem Value.offConsole_unary (operator : Token) (v : Value) :
    OffConsole (v.unary operator) := by
  unfold Value.unary
  split <;> first | exact trivial | exact not_false

theorem Value.offConsole_binary (operator : Token) (v w : Value) :
    OffConsole (v.binary operator w) := by
  unfold Value.binary Value.add Value.arithmetic
  repeat' split
  all_goals first | exact trivial | exact not_false

theorem Value.offConsole_step (operator : Token) (v : Value) : OffConsole (v.step operator) := by
  unfold Value.step
  split <;> first | exact trivial | exact not_false

theorem OffConsole.recorded {result : Except RuntimeError.Cause Value} (off : OffConsole result)
    (line : Int) : Recorded (ofResult line result : RunningOn σ Value) (ofResult line result) := by
  cases result with
  | ok v => exact recorded_pure v
  | error cause => exact recorded_fail off (fun _ => Option.some_ne_none line)

end

/-! ## Runs of the same fuel -/

/-- Steps whose errors have their lines, but for those of native functions, which lie in the
console. -/
structure Steps.Placed {σ : Type} (steps : Steps σ) : Prop where
  lookUp : ∀ env id name, StopsAs Stop.IsPlaced (steps.lookUp env id name)
  assign : ∀ env id name v, StopsAs Stop.IsPlaced (steps.assign env id name v)
  define : ∀ env name v, StopsAs Stop.IsPlaced (steps.define env name v)
  openBlock : ∀ env statements, StopsAs Stop.IsPlaced (steps.openBlock env statements)
  close : ∀ env keyword params body name,
    StopsAs Stop.IsPlaced (steps.close env keyword params body name)
  note : ∀ e, StopsAs Stop.IsPlaced (steps.note e)
  bindArguments : ∀ c vs s, ∃ env s', steps.bindArguments c vs s = .ok env s'
  callNative : ∀ f vs, StopsAs Stop.IsOfConsole (steps.callNative f vs)

/-- With the same fuel, each part of a program is recorded. -/
structure RecordedAt {σ : Type} (steps : Steps σ) (n : Nat) : Prop where
  exec : ∀ env s, Recorded (exec steps n env s) (Recording.exec steps n env s)
  rounds : ∀ env condition body increment, Recorded
    (rounds steps n env condition body increment)
    (Recording.rounds steps n env condition body increment)
  eval : ∀ env e, Recorded (eval steps n env e) (Recording.eval steps n env e)
  call : ∀ f vs line, Recorded (call steps n f vs line) (Recording.call steps n f vs line)
  enter : ∀ c vs line, Recorded (inCall (.line line) (enter steps n c vs))
    (Recording.inActivation ⟨c, line⟩ (Recording.enter steps n c vs))

section
variable {σ : Type} {steps : Steps σ} (placed : steps.Placed) {n : Nat} (below : RecordedAt steps n)
include placed below

private theorem recorded_exec (env : Env) (s : Stmt) :
    Recorded (exec steps (n + 1) env s) (Recording.exec steps (n + 1) env s) := by
  cases s with
  | expression e => exact (below.eval env e).bind fun _ => recorded_pure _
  | declaration name initializer =>
    have declared (v : Value) : Recorded
        (do steps.define env name v; return Completion.finished)
        (do Recording.lift (steps.define env name v); return Completion.finished) :=
      (recorded_lift (placed.define env name v)).bind fun _ => recorded_pure _
    cases initializer with
    | none => exact declared .nil
    | some e => exact (below.eval env e).bind declared
  | block statements =>
    exact (recorded_lift (placed.openBlock env statements)).bind fun inner =>
      recorded_inOrder (below.exec inner) statements
  | ifElse condition thenBranch elseBranch =>
    refine (below.eval env condition).bind fun v => (recorded_lift (placed.note _)).bind fun _ => ?_
    cases v.truthy with
    | true => exact below.exec env thenBranch
    | false =>
      cases elseBranch with
      | none => exact recorded_pure _
      | some s => exact below.exec env s
  | whileLoop condition body increment => exact below.rounds env condition body increment
  | breakLoop => exact recorded_pure _
  | continueLoop => exact recorded_pure _
  | returnValue keyword value =>
    cases value with
    | none => exact recorded_pure _
    | some e => exact (below.eval env e).bind fun _ => recorded_pure _
  | misplaced kind => exact recorded_fault _

omit placed in
private theorem recorded_rounds (env : Env) (condition : Expr) (body : Stmt)
    (increment : Option Expr) :
    Recorded (rounds steps (n + 1) env condition body increment)
      (Recording.rounds steps (n + 1) env condition body increment) := by
  refine (below.eval env condition).bind fun v => ?_
  cases v.truthy with
  | false => exact recorded_pure _
  | true =>
    refine (below.exec env body).bind fun ended => ?_
    cases ended with
    | broken | returned => exact recorded_pure _
    | finished | continued =>
      cases increment with
      | none => exact below.rounds env condition body none
      | some e => exact (below.eval env e).bind fun _ => below.rounds env condition body (some e)

private theorem recorded_eval (env : Env) (e : Expr) :
    Recorded (eval steps (n + 1) env e) (Recording.eval steps (n + 1) env e) := by
  cases e with
  | literal => exact recorded_pure _
  | grouping id inner => exact below.eval env inner
  | unary id operator right =>
    exact (below.eval env right).bind fun v =>
      (Value.offConsole_unary operator v).recorded operator.line
  | binary id left operator right =>
    exact (below.eval env left).bind fun v => (below.eval env right).bind fun w =>
      (Value.offConsole_binary operator v w).recorded operator.line
  | logical id left operator right =>
    refine (below.eval env left).bind fun v => ?_
    cases v.settles operator with
    | true => exact recorded_pure _
    | false => exact below.eval env right
  | step id left operator =>
    cases left with
    | reference id name =>
      exact (recorded_lift (placed.lookUp env id name)).bind fun v =>
        ((Value.offConsole_step operator v).recorded operator.line).bind fun w =>
          (recorded_lift (placed.assign env id name w)).bind fun _ => recorded_pure _
    | literal | grouping | unary | binary | logical | step | assignment | call | lambda
    | misplaced => exact recorded_fail not_false fun _ => Option.some_ne_none operator.line
  | reference id name => exact (recorded_lift (placed.lookUp env id name))
  | assignment id name value =>
    exact (below.eval env value).bind fun v =>
      (recorded_lift (placed.assign env id name v)).bind fun _ => recorded_pure _
  | call id callee arguments paren =>
    exact (below.eval env callee).bind fun f =>
      (recorded_mapM (below.eval env) arguments).bind fun vs => below.call f vs paren.line
  | lambda id keyword params body name =>
    exact recorded_lift (placed.close env keyword params body name)
  | misplaced kind => exact recorded_fault _

private theorem recorded_call (f : Value) (vs : List Value) (line : Int) :
    Recorded (call steps (n + 1) f vs line) (Recording.call steps (n + 1) f vs line) := by
  cases f with
  | closure c =>
    exact (recorded_checkArity _ _ line).bind fun _ => (recorded_lift (placed.note _)).bind fun _ =>
      below.enter c vs line
  | native f =>
    exact (recorded_checkArity _ _ line).bind fun _ => (recorded_lift (placed.note _)).bind fun _ =>
      recorded_native line (placed.callNative f vs)
  | nil | bool | num | str =>
    exact recorded_fail not_false fun _ => Option.some_ne_none line

private theorem recorded_enter (c : Closure) (vs : List Value) (line : Int) :
    Recorded (inCall (.line line) (enter steps (n + 1) c vs))
      (Recording.inActivation ⟨c, line⟩ (Recording.enter steps (n + 1) c vs)) := by
  intro activations s
  -- The arguments always find a frame, so that nothing is raised before the body.
  obtain ⟨env, s', bound⟩ := placed.bindArguments c vs s
  have body := ((recorded_inOrder (below.exec env) c.body).bind recorded_valueOf).inActivation
    ⟨c, line⟩ activations s'
  rw [enter, inCall_bind_of_ok bound, Recording.enter, Recording.inActivation_bind_of_ok bound]
  exact body

end

theorem recordedAt {σ : Type} {steps : Steps σ} (placed : steps.Placed) (n : Nat) :
    RecordedAt steps n := by
  induction n with
  | zero =>
    refine ⟨fun _ _ => recorded_outOfFuel, fun _ _ _ _ => recorded_outOfFuel,
      fun _ _ => recorded_outOfFuel, fun _ _ _ => recorded_outOfFuel, fun c vs line => ?_⟩
    intro activations s
    have noError : ∀ e, Stop.outOfFuel ≠ .error e := nofun
    exact .stop noError ⟨s, activations ++ [⟨c, line⟩], none⟩
  | succ n ih =>
    exact ⟨recorded_exec placed ih, recorded_rounds ih, recorded_eval placed ih,
      recorded_call placed ih, recorded_enter placed ih⟩

theorem recorded_interpret {σ : Type} {steps : Steps σ} (placed : steps.Placed) (fuel : Nat)
    (p : Program) : Recorded (interpret steps fuel p) (Recording.interpret steps fuel p) :=
  recorded_forM (fun s => ((recordedAt placed fuel).exec .global s).bind recorded_expectFinished) p

/-! ## Steps of a machine -/

section
variable (access : Access) (env : Env) (id : Nat) (name : Token)

theorem isPlaced_ofFound {α : Type} (found : Except Missing α) :
    StopsAs Stop.IsPlaced (ofFound name found) := by
  cases found with
  | ok a => exact .of_ok fun s => ⟨a, s, rfl⟩
  | error missing =>
    cases missing with
    | undefined | uninitialized => exact stopsAs_throw ⟨rfl, not_false, Option.some_ne_none _⟩
    | noFrame => exact stopsAs_throw trivial

theorem isPlaced_lookUp : StopsAs Stop.IsPlaced (lookUp access env id name) :=
  fun s => isPlaced_ofFound name _ s

theorem isPlaced_assign (v : Value) : StopsAs Stop.IsPlaced (assign access env id name v) := by
  have owner : StopsAs Stop.IsPlaced (ownerOf access env id name) :=
    fun s => isPlaced_ofFound name _ s
  exact owner.bind fun r => .of_ok fun s => ⟨_, _, rfl⟩

end

theorem stopsAs_get {P : Stop → Prop} : StopsAs P (get : Running Machine) :=
  .of_ok fun s => ⟨s, s, rfl⟩

theorem isOfConsole_callNative (f : Native) (vs : List Value) :
    StopsAs Stop.IsOfConsole (callNative f vs) := by
  cases f with
  | clock => exact .of_ok fun s => ⟨_, _, rfl⟩
  | print =>
    refine StopsAs.bind ?_ fun _ => .of_ok fun s => ⟨_, _, rfl⟩
    refine stopsAs_get.bind fun m => ?_
    cases m.console.writable with
    | true => exact .of_ok fun s => ⟨_, _, rfl⟩
    | false => exact stopsAs_throw ⟨rfl, trivial, rfl⟩
  | input =>
    have taken (lines : List (List Char)) : StopsAs Stop.IsOfConsole (takeLine lines) := by
      cases lines <;> exact .of_ok fun s => ⟨_, _, rfl⟩
    have line : StopsAs Stop.IsOfConsole readLine := by
      refine stopsAs_get.bind fun m => ?_
      dsimp only
      cases m.console.readFails with
      | true => exact stopsAs_throw ⟨rfl, trivial, rfl⟩
      | false => exact taken m.console.unread
    refine line.bind fun found => ?_
    cases found <;> exact .of_ok fun s => ⟨_, _, rfl⟩

/-- The steps of a machine with any access to its variables. -/
theorem Access.placed_steps (access : Access) : access.steps.Placed where
  lookUp := isPlaced_lookUp access
  assign := isPlaced_assign access
  define _ _ _ := .of_ok fun _ => ⟨_, _, rfl⟩
  openBlock _ _ := .of_ok fun _ => ⟨_, _, rfl⟩
  close _ _ _ _ _ := .of_ok fun _ => ⟨_, _, rfl⟩
  note _ := .of_ok fun _ => ⟨_, _, rfl⟩
  bindArguments _ _ _ := ⟨_, _, rfl⟩
  callNative := isOfConsole_callNative

/-! ## Texts -/

namespace Acting

/-- Nothing is run as long as a text is read. -/
theorem parse_ne_stopped {source : String} {s s' : Session} {stop : Stop} :
    parse source s ≠ .error (.stopped stop) s' := by
  intro failed
  have readAs := parse_readAs s source
  rw [failed] at readAs
  cases readAs

/-- Nothing is run as long as a program is resolved. -/
theorem install_ne_stopped {r : Resolution} {s s' : Session} {stop : Stop} :
    install r s ≠ .error (.stopped stop) s' := by
  intro failed
  obtain ⟨trace, same⟩ := install_eq r s
  rw [same] at failed
  rcases outcome : r.outcome with (e | kind) | u <;> rw [outcome] at failed <;> cases failed

end Acting

theorem Recording.lift_of_ok {ε σ α : Type} {run : EStateM ε σ α} {a : α} {s s' : σ}
    (done : run s = .ok a s') : lift run (outside s) = .ok a (outside s') := by
  simp only [lift, outside, done]

/-- A text that an error stops when it is run is stopped by the same error when its calls are
recorded, and those that are open then are the ones that the error was told. -/
theorem Recording.run_of_error {fuel : Nat} {source : String} {s s' : Session} {e : RuntimeError}
    (failed : Acting.run fuel source s = .error (.stopped (.error e)) s') :
    ∃ activations native, run fuel source (outside s) =
        .error (.stopped (.error e.bare)) ⟨s', activations, native⟩ ∧
      e.RaisedIn activations native := by
  unfold Acting.run at failed
  unfold run
  cases parsed : Acting.parse source s with
  | error failure s₁ =>
    rw [run_bind_of_error parsed] at failed
    cases failed
    exact absurd parsed Acting.parse_ne_stopped
  | ok p s₁ =>
    rw [run_bind_of_ok parsed] at failed
    rw [run_bind_of_ok (lift_of_ok parsed)]
    cases installed : Acting.install p.resolution s₁ with
    | error failure s₂ =>
      rw [run_bind_of_error installed] at failed
      cases failed
      exact absurd installed Acting.install_ne_stopped
    | ok u s₂ =>
      rw [run_bind_of_ok installed] at failed
      rw [run_bind_of_ok (lift_of_ok installed)]
      obtain ⟨machine, table, nextId⟩ := s₂
      have ends := recorded_interpret (Access.distances table).placed_steps fuel p [] machine
      cases ran : Lox.interpret (Access.distances table).steps fuel p machine with
      | ok u m =>
        have done : Acting.perform (fun steps => Lox.interpret steps fuel p)
            ⟨machine, table, nextId⟩ = .ok u ⟨m, table, nextId⟩ := by
          simp only [Acting.perform, ran]
        rw [run_bind_of_ok done] at failed
        cases failed
      | error stop m =>
        have stopped : Acting.perform (fun steps => Lox.interpret steps fuel p)
            ⟨machine, table, nextId⟩ = .error (.stopped stop) ⟨m, table, nextId⟩ := by
          simp only [Acting.perform, ran]
        rw [run_bind_of_error stopped] at failed
        cases failed
        rw [ran] at ends
        generalize isEnd : interpret (Access.distances table).steps fuel p
          ⟨machine, [], none⟩ = result at ends
        cases ends with
        | @error _ activations native raised =>
          refine ⟨activations, native, ?_, raised⟩
          have recorded : perform (fun steps => interpret steps fuel p)
              (outside ⟨machine, table, nextId⟩) =
                .error (.stopped (.error e.bare)) ⟨⟨m, table, nextId⟩, activations, native⟩ := by
            simp only [perform, outside, isEnd, List.nil_append]
          rw [run_bind_of_error recorded]
        | stop noError r => exact absurd rfl (noError e)

/-- In a session of any texts, an error that stops a text was told every call that was open when it
was raised, outermost first: of a call of a function its line, and the function with the line of its
`fun`; of a call of a native function its line, and this only if the console failed in it. Such an
error has no line of its own, and every other one has. -/
theorem Session.error_in_calls (console : Console) (debugLevel : Nat) (runs : List (Nat × String))
    (fuel : Nat) (source : String) {e : RuntimeError}
    (stopped : ((Session.start console debugLevel).afterRuns runs).error? (Acting.run fuel source) =
      some e) :
    let s := (Session.start console debugLevel).afterRuns runs
    ∃ activations native,
      Recording.run fuel source (.outside s) =
        .error (.stopped (.error e.bare))
          ⟨(s.after (Acting.run fuel source)).2, activations, native⟩ ∧
      e.context = (activations.flatMap fun a =>
          [.line a.line, .calling a.function.name a.function.keyword.line]) ++
        (native.toList.map .line) ∧
      (native.isSome ↔ e.cause.IsConsole) ∧ (e.line = none ↔ native.isSome) := by
  intro s
  have failed := after_of_error stopped
  obtain ⟨activations, native, recorded, raised⟩ := Recording.run_of_error (of_after_error failed)
  refine ⟨activations, native, recorded, raised.context, raised.console, ?_, raised.noLine⟩
  intro noLine
  have fits : s.Fits _ False := Session.fits_afterRuns console debugLevel False.elim
  have expected : e.Expected _ := (endsWell_run fits False.elim fuel).expected failed
  cases native with
  | none => exact absurd noLine (raised.line rfl expected.inPlace)
  | some line => rfl

/-- A function that fails in the arguments of a call that another function makes. -/
theorem Session.error_in_nested_calls :
    let s := (Session.start (.ofInput "" none false fun _ => 0) 0).afterRuns
      [(20, "fun f(x) \x7b return -x; \x7d\nfun g(x) \x7b\n return f(f(x)); \x7d")]
    let source := "print(g(\n\"a\"));"
    ∃ e, s.error? (Acting.run 20 source) = some e ∧ ∃ activations native,
      Recording.run 20 source (.outside s) = .error (.stopped (.error e.bare))
        ⟨(s.after (Acting.run 20 source)).2, activations, native⟩ ∧
      e.context = (activations.flatMap fun a =>
          [.line a.line, .calling a.function.name a.function.keyword.line]) ++
        (native.toList.map .line) ∧
      (native.isSome ↔ e.cause.IsConsole) ∧ (e.line = none ↔ native.isSome) := by
  intro s source
  have fails : (s.error? (Acting.run 20 source)).isSome := by decide +kernel
  obtain ⟨e, stopped⟩ := Option.isSome_iff_exists.1 fails
  exact ⟨e, stopped, Session.error_in_calls _ 0 _ 20 source stopped⟩

-- A call that is refused adds nothing, and a call of a native function adds its line.
example : ((Session.start (.ofInput "" none false fun _ => 0) 0).error?
    (Acting.run 20 "fun f() \x7b\n return f(1); \x7d\n\nf();")).map (·.context) =
      some [.line 4, .calling "f" 1] := by decide +kernel

example : ((Session.start (.ofInput "" (some 0) false fun _ => 0) 0).error?
    (Acting.run 20 "fun f() \x7b\n print(1); \x7d\n\nf();")).map (fun e => (e.context, e.line)) =
      some ([.line 4, .calling "f" 1, .line 2], none) := by decide +kernel

end Lox
