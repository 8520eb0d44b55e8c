import Lox.Proofs.Matching.Machines
import Lox.Run.Eval

/-!
# Runs of programs that match

Programs that match end in the same way, in machines that match. A run that assigns a variable needs
more fuel than one that counts it up or down, and a value that is no number ends the two with errors
of different wording.
-/

namespace Lox

open Running

/-! ## Blurred runs -/

/-- What ended a run, with something else told of the cause of an error. -/
def Stop.blur (blur : RuntimeError.Cause → RuntimeError.Cause) : Stop → Stop
  | .error e => .error { e with cause := blur e.cause }
  | s => s

theorem Stop.blur_inCall (blur : RuntimeError.Cause → RuntimeError.Cause) (step : CallStep)
    (e : Stop) : (e.inCall step).blur blur = (e.blur blur).inCall step := by
  cases e <;> rfl

/-- A run that tells something else of the causes of errors. -/
def blurred {α : Type} (blur : RuntimeError.Cause → RuntimeError.Cause) (run : Running α) :
    Running α :=
  run.adaptExcept (·.blur blur)

section
variable {α β : Type} (blur : RuntimeError.Cause → RuntimeError.Cause)

theorem blurred_bind (run : Running α) (f : α → Running β) :
    blurred blur (run >>= f) = blurred blur run >>= fun a => blurred blur (f a) := by
  funext m
  simp only [blurred, EStateM.adaptExcept, bind, EStateM.bind]
  cases run m <;> rfl

theorem blurred_inCall (step : CallStep) (run : Running α) :
    blurred blur (inCall step run) = inCall step (blurred blur run) := by
  funext m
  show EStateM.adaptExcept _ (EStateM.adaptExcept _ run) m =
    EStateM.adaptExcept _ (EStateM.adaptExcept _ run) m
  unfold EStateM.adaptExcept
  cases run m with
  | ok a m₁ => rfl
  | error e m₁ => exact congrArg (EStateM.Result.error · m₁) (Stop.blur_inCall blur step e)

theorem blurred_ofResult (line : Int) (result : Except RuntimeError.Cause Value) :
    blurred blur (ofResult line result) = ofResult line (result.mapError blur) := by
  cases result <;> rfl

end

namespace Matching

variable {M : Matching} {n : Nat} {w w' : List Nat} {α β : Type}

/-- Runs with different fuel end as another run does, or that one lacks fuel and they do as well. The
causes of errors are blurred. -/
def Follows (M : Matching) (Q : List Nat → α → α → Prop) (n : Nat) (w : List Nat) (run : Running α)
    (runs : Nat → Running α) : Prop :=
  Trails M.Machines Q n w (blurred M.blur run) fun k => blurred M.blur (runs k)

namespace Follows

variable {P : List Nat → α → α → Prop} {Q : List Nat → β → β → Prop} {run : Running α}
  {runs : Nat → Running α}

theorem of_trails (trails : Trails M.Machines P n w run runs) : M.Follows P n w run runs := by
  refine trails.adaptExcept rfl fun e ended => ?_
  cases e with
  | outOfFuel => exact absurd rfl ended
  | _ => exact nofun

theorem mono {n' : Nat} (less : n' ≤ n) (follows : M.Follows P n w run runs) :
    M.Follows P n' w run runs :=
  Trails.mono less follows

theorem without_fuel (none : runs 0 = throw .outOfFuel) : M.Follows P 0 w (throw .outOfFuel) runs :=
  Trails.without_fuel (congrArg (blurred M.blur) none)

theorem delayed (none : runs 0 = throw .outOfFuel)
    (follows : M.Follows P n w run fun k => runs (k + 1)) : M.Follows P (n + 1) w run runs :=
  Trails.delayed (congrArg (blurred M.blur) none) follows

theorem bind {f : α → Running β} {f' : Nat → α → Running β} (first : M.Follows P n w run runs)
    (second : ∀ w', w <+: w' → ∀ a a', P w' a a' → M.Follows Q n w' (f a) fun k => f' k a') :
    M.Follows Q n w (run >>= f) fun k => runs k >>= f' k := by
  unfold Follows
  simp only [blurred_bind]
  exact Trails.bind first second

theorem inCall (step : CallStep) (follows : M.Follows P n w run runs) :
    M.Follows P n w (Running.inCall step run) fun k => Running.inCall step (runs k) := by
  unfold Follows
  simp only [blurred_inCall]
  exact Trails.inCall step follows

/-- What is known of the machines of both runs may be used. -/
theorem given (follows : ∀ m m', M.Machines w m m' → M.Follows P n w run runs) :
    M.Follows P n w run runs :=
  fun m m' states => follows m m' states m m' states

end Follows

theorem follows_pure {Q : List Nat → α → α → Prop} {a a' : α} (values : Q w a a') :
    M.Follows Q n w (pure a) fun _ => pure a' :=
  .of_trails (trails_pure values)

theorem follows_fail {Q : List Nat → α → α → Prop} (cause : RuntimeError.Cause) (line : Option Int) :
    M.Follows Q n w (fail cause line) fun _ => fail cause line :=
  .of_trails (trails_fail cause line)

theorem follows_fault {Q : List Nat → α → α → Prop} (f : Fault) :
    M.Follows Q n w (throw (.fault f)) fun _ => throw (.fault f) :=
  .of_trails (trails_throw nofun)

/-! ## Parts of runs -/

/-- Two statements end in the same way. -/
inductive Completions (M : Matching) (w : List Nat) : Completion → Completion → Prop
  | finished : Completions M w .finished .finished
  | broken : Completions M w .broken .broken
  | continued : Completions M w .continued .continued
  | returned {v v' : Value} (values : M.Values w v v') :
      Completions M w (.returned v) (.returned v')

/-- Results that are told to be the same end runs in the same way. -/
theorem follows_ofResult (line : Int) {result result' : Except RuntimeError.Cause Value}
    (same : result.mapError M.blur = result'.mapError M.blur)
    (plain : ∀ v, result = .ok v → v.Plain) :
    M.Follows M.Values n w (ofResult line result) fun _ => ofResult line result' := by
  unfold Follows
  simp only [blurred_ofResult, ← same]
  cases result with
  | ok v => exact trails_pure (.plain (plain v rfl))
  | error cause => exact trails_fail _ (some line)

theorem follows_valueOf {c c' : Completion} (completions : M.Completions w c c') :
    M.Follows M.Values n w (valueOf c) fun _ => valueOf c' := by
  cases completions with
  | finished => exact follows_pure (.plain (Value.plain_ofLiteral .nil))
  | returned values => exact follows_pure values
  | broken | continued => exact follows_fail _ none

theorem follows_expectFinished {c c' : Completion} (completions : M.Completions w c c') :
    M.Follows (fun _ _ _ => True) n w (expectFinished c) fun _ => expectFinished c' := by
  cases completions with
  | finished => exact follows_pure trivial
  | returned | broken | continued => exact follows_fail _ none

/-- Statements run one after the other if each of them does. -/
theorem follows_inOrder {exec : Stmt → Running Completion} {exec' : Nat → Stmt → Running Completion}
    (each : ∀ {w s s'}, Stmt.Matches M.respells M.uses s s' →
      M.Follows M.Completions n w (exec s) fun k => exec' k s') :
    ∀ {ss ss' : List Stmt} {w : List Nat}, Stmt.AllMatches M.respells M.uses ss ss' →
      M.Follows M.Completions n w (inOrder exec ss) fun k => inOrder (exec' k) ss' := by
  intro ss
  induction ss with
  | nil =>
    intro ss' w matching
    cases matching
    exact follows_pure .finished
  | cons s rest ih =>
    intro ss' w matching
    cases matching with
    | cons head tail =>
      refine (each head).bind fun w' further c c' ended => ?_
      cases ended with
      | finished => exact ih tail
      | broken => exact follows_pure .broken
      | continued => exact follows_pure .continued
      | returned values => exact follows_pure (.returned values)

/-- Expressions are evaluated one after the other if each of them is. -/
theorem follows_mapM {eval : Expr → Running Value} {eval' : Nat → Expr → Running Value}
    (each : ∀ {w e e'}, Expr.Matches M.respells M.uses e e' →
      M.Follows M.Values n w (eval e) fun k => eval' k e') :
    ∀ {es es' : List Expr} {w : List Nat}, Expr.AllMatches M.respells M.uses es es' →
      M.Follows (fun w => List.Forall₂ (M.Values w)) n w (es.mapM eval)
        fun k => es'.mapM (eval' k) := by
  intro es
  induction es with
  | nil =>
    intro es' w matching
    cases matching
    exact follows_pure .nil
  | cons e rest ih =>
    intro es' w matching
    cases matching with
    | cons head tail =>
      simp only [List.mapM_cons]
      refine (each head).bind fun w' further v v' value => ?_
      refine (ih tail).bind fun w'' further' vs vs' values => ?_
      exact follows_pure (.cons (value.later further') values)

/-! ## Runs of trees that match -/

/-- With an amount of fuel for the runs of trees, those of trees that match follow them. -/
structure FollowsWith (M : Matching) (n : Nat) : Prop where
  exec : ∀ {w env s s'}, Stmt.Matches M.respells M.uses s s' →
    M.Follows M.Completions n w (exec (Access.distances M.table).steps n env s)
      fun k => exec (Access.distances M.table').steps k env s'
  rounds : ∀ {w env e e' s s' f f'}, Expr.Matches M.respells M.uses e e' →
    Stmt.Matches M.respells M.uses s s' → Expr.OptionMatches M.respells M.uses f f' →
    M.Follows M.Completions n w (rounds (Access.distances M.table).steps n env e s f)
      fun k => rounds (Access.distances M.table').steps k env e' s' f'
  eval : ∀ {w env e e'}, Expr.Matches M.respells M.uses e e' →
    M.Follows M.Values n w (eval (Access.distances M.table).steps n env e)
      fun k => eval (Access.distances M.table').steps k env e'
  call : ∀ {w f f' vs vs'}, M.Values w f f' → List.Forall₂ (M.Values w) vs vs' → ∀ line,
    M.Follows M.Values n w (call (Access.distances M.table).steps n f vs line)
      fun k => call (Access.distances M.table').steps k f' vs' line
  enter : ∀ {w c c' vs vs'}, M.Closures w c c' → List.Forall₂ (M.Values w) vs vs' →
    M.Follows M.Values n w (enter (Access.distances M.table).steps n c vs)
      fun k => enter (Access.distances M.table').steps k c' vs'

section Steps
variable {env : Env}

theorem follows_lookUp {id id' : Nat} (use : M.uses id id') (name : Token) :
    M.Follows M.Values n w ((Access.distances M.table).steps.lookUp env id name)
      fun _ => (Access.distances M.table').steps.lookUp env id' name :=
  .of_trails (trails_lookUp env use name)

/-- A variable is given a value, which is the result. -/
theorem follows_assign {id id' : Nat} (use : M.uses id id') (name : Token) {v v' : Value}
    (values : M.Values w v v') :
    M.Follows M.Values n w
      (do (Access.distances M.table).steps.assign env id name v
          return v)
      fun _ => do
        (Access.distances M.table').steps.assign env id' name v'
        return v' :=
  (Follows.of_trails (trails_assign env use name values)).bind fun _ further _ _ _ =>
    follows_pure (values.later further)

/-- A variable is assigned that was counted up or down: it is read first in both cases. -/
theorem follows_counting (allowed : M.respells) (group sum one : Nat) {use target source : Nat}
    (name operator : Token) (written : M.uses use target) (read : M.uses use source) :
    M.Follows M.Values n w
      (do let v ← (Access.distances M.table).steps.lookUp env use name
          let u ← ofResult operator.line (v.step operator)
          (Access.distances M.table).steps.assign env use name u
          return u)
      fun k => eval (Access.distances M.table').steps (k + 1) env
        (.counting group target sum source one name operator) := by
  have onLine : operator.sign.line = operator.line := by
    unfold Token.sign
    split <;> rfl
  -- The reference is under three more nodes, each of which takes one amount of fuel.
  refine (Follows.delayed rfl <| Follows.delayed rfl <| Follows.delayed rfl ?_).mono
    (Nat.le_add_right n 3)
  simp only [Expr.counting, eval, pure_bind, bind_assoc, onLine]
  refine (follows_lookUp read name).bind fun w' further v v' value => ?_
  have same : (v.step operator).mapError M.blur =
      (v'.binary operator.sign (.num 1.0)).mapError M.blur := by
    rw [← value.step, M.blur_step allowed]
  refine (follows_ofResult operator.line same fun _ => Value.plain_step).bind ?_
  exact fun w'' further' u u' values => follows_assign written name values

variable (below : M.FollowsWith n)
include below

private theorem follows_exec {s s' : Stmt} (matching : Stmt.Matches M.respells M.uses s s') :
    M.Follows M.Completions (n + 1) w (exec (Access.distances M.table).steps (n + 1) env s)
      fun k => exec (Access.distances M.table').steps k env s' := by
  refine Follows.delayed rfl ?_
  cases matching with
  | expression value => exact (below.eval value).bind fun _ _ _ _ _ => follows_pure .finished
  | declaration name initializer =>
    have defined {w' : List Nat} {v v' : Value} (values : M.Values w' v v') :=
      (Follows.of_trails (n := n) (trails_define env name values)).bind
        fun _ _ _ _ _ => follows_pure (Q := M.Completions) .finished
    cases initializer with
    | none => exact defined (.plain (Value.plain_ofLiteral .nil))
    | some value => exact (below.eval value).bind fun _ _ _ _ values => defined values
  | block statements =>
    refine (Follows.of_trails (trails_newFrame env.chain)).bind ?_
    rintro w' further _ inner rfl
    exact follows_inOrder below.exec statements
  | ifElse condition thenBranch elseBranch =>
    refine (below.eval condition).bind fun w' further v v' value => ?_
    refine (Follows.of_trails (sharesConsole.trails_note _ _)).bind fun w'' further' _ _ _ => ?_
    rw [value.truthy]
    cases v.truthy with
    | true => exact below.exec thenBranch
    | false =>
      cases elseBranch with
      | none => exact follows_pure .finished
      | some branch => exact below.exec branch
  | whileLoop condition body increment => exact below.rounds condition body increment
  | breakLoop keyword => exact follows_pure .broken
  | continueLoop keyword => exact follows_pure .continued
  | returnValue keyword value =>
    cases value with
    | none => exact follows_pure (.returned (.plain (Value.plain_ofLiteral .nil)))
    | some value => exact (below.eval value).bind fun _ _ _ _ values => follows_pure (.returned values)
  | misplaced kind => exact follows_fault _

private theorem follows_rounds {e e' : Expr} {s s' : Stmt} {f f' : Option Expr}
    (condition : Expr.Matches M.respells M.uses e e') (body : Stmt.Matches M.respells M.uses s s')
    (increment : Expr.OptionMatches M.respells M.uses f f') :
    M.Follows M.Completions (n + 1) w (rounds (Access.distances M.table).steps (n + 1) env e s f)
      fun k => rounds (Access.distances M.table').steps k env e' s' f' := by
  refine Follows.delayed rfl ?_
  refine (below.eval condition).bind fun w' further v v' value => ?_
  rw [value.truthy]
  by_cases holds : v.truthy
  · simp only [holds, if_true]
    refine (below.exec body).bind fun w'' further' c c' ended => ?_
    cases ended with
    | broken => exact follows_pure .finished
    | returned values => exact follows_pure (.returned values)
    | finished | continued =>
      cases increment with
      | none => exact below.rounds condition body .none
      | some onward =>
        exact (below.eval onward).bind fun _ _ _ _ _ => below.rounds condition body (.some onward)
  · simp only [holds, Bool.false_eq_true, if_false]
    exact follows_pure .finished

private theorem follows_eval {e e' : Expr} (matching : Expr.Matches M.respells M.uses e e') :
    M.Follows M.Values (n + 1) w (eval (Access.distances M.table).steps (n + 1) env e)
      fun k => eval (Access.distances M.table').steps k env e' := by
  refine Follows.delayed rfl ?_
  cases matching with
  | literal id id' value => exact follows_pure (.plain (Value.plain_ofLiteral value))
  | grouping _ _ inner => exact below.eval inner
  | unary _ _ operator right =>
    refine (below.eval right).bind fun w' further v v' value => ?_
    rw [value.unary]
    exact follows_ofResult operator.line rfl fun _ => Value.plain_unary
  | binary _ _ operator left right =>
    refine (below.eval left).bind fun w' further v v' value => ?_
    refine (below.eval right).bind fun w'' further' u u' value' => ?_
    refine Follows.given fun m m' states => ?_
    rw [Values.binary states.nodup (value.later further') value']
    exact follows_ofResult operator.line rfl fun _ => Value.plain_binary
  | logical _ _ operator left right =>
    refine (below.eval left).bind fun w' further v v' value => ?_
    rw [value.settles]
    cases v.settles operator with
    | true => exact follows_pure value
    | false => exact below.eval right
  | step _ _ operator left =>
    cases left with
    | reference name use =>
      refine (follows_lookUp use name).bind fun w' further v v' value => ?_
      rw [value.step]
      refine (follows_ofResult operator.line rfl fun _ => Value.plain_step).bind ?_
      exact fun w'' further' u u' values => follows_assign use name values
    | _ => exact follows_fail _ (some operator.line)
  | respelt allowed _ group sum one name operator written read =>
    exact follows_counting allowed group sum one name operator written read
  | reference name use => exact follows_lookUp use name
  | assignment name value use =>
    exact (below.eval value).bind fun w' further v v' values => follows_assign use name values
  | call _ _ paren callee arguments =>
    refine (below.eval callee).bind fun w' further f f' function => ?_
    refine (follows_mapM below.eval arguments).bind fun w'' further' vs vs' values => ?_
    exact below.call (function.later further') values paren.line
  | lambda _ _ keyword params name statements =>
    exact .of_trails (trails_close env keyword params statements name)
  | misplaced kind => exact follows_fault _

private theorem follows_call {f f' : Value} {vs vs' : List Value} (function : M.Values w f f')
    (values : List.Forall₂ (M.Values w) vs vs') (line : Int) :
    M.Follows M.Values (n + 1) w (call (Access.distances M.table).steps (n + 1) f vs line)
      fun k => call (Access.distances M.table').steps k f' vs' line := by
  refine Follows.delayed rfl ?_
  cases function with
  | closure closures =>
    simp only [call]
    rw [show Closure.arity _ = Closure.arity _ from congrArg List.length closures.params,
      ← values.length_eq]
    refine (Follows.of_trails (trails_checkArity _ _ line)).bind fun w' further _ _ _ => ?_
    refine (Follows.of_trails (sharesConsole.trails_note _ _)).bind fun w'' further' _ _ _ => ?_
    have further := further.trans further'
    exact (below.enter (closures.later further) (Values.all_later further values)).inCall (.line line)
  | plain plain =>
    cases f with
    | closure c => exact absurd rfl (plain c)
    | native f =>
      simp only [call]
      rw [← values.length_eq]
      refine (Follows.of_trails (trails_checkArity _ _ line)).bind fun w' further _ _ _ => ?_
      refine (Follows.of_trails (sharesConsole.trails_note _ _)).bind fun w'' further' _ _ _ => ?_
      have later := Values.all_later (further.trans further') values
      exact (Follows.of_trails (trails_callNative f later)).inCall (.line line)
    | nil | bool | num | str => exact follows_fail _ (some line)

private theorem follows_enter {c c' : Closure} {vs vs' : List Value} (function : M.Closures w c c')
    (values : List.Forall₂ (M.Values w) vs vs') :
    M.Follows M.Values (n + 1) w (enter (Access.distances M.table).steps (n + 1) c vs)
      fun k => enter (Access.distances M.table').steps k c' vs' := by
  refine Follows.delayed rfl ?_
  refine (Follows.of_trails (trails_bindArguments function values)).bind ?_
  rintro w' further _ inner rfl
  rw [function.name, function.keyword]
  refine Follows.inCall (.calling _ _) ?_
  exact (follows_inOrder below.exec function.body).bind fun w'' further' d d' ended =>
    follows_valueOf ended

end Steps

/-- Runs of trees that match follow one another, with every amount of fuel. -/
theorem followsWith (M : Matching) (n : Nat) : M.FollowsWith n := by
  induction n with
  | zero =>
    refine ⟨?_, ?_, ?_, ?_, ?_⟩
    · intro w env s s' _
      exact Follows.without_fuel rfl
    · intro w env e e' s s' f f' _ _ _
      exact Follows.without_fuel rfl
    · intro w env e e' _
      exact Follows.without_fuel rfl
    · intro w f f' vs vs' _ _ line
      exact Follows.without_fuel rfl
    · intro w c c' vs vs' _ _
      exact Follows.without_fuel rfl
  | succ n ih =>
    exact ⟨follows_exec ih, follows_rounds ih, follows_eval ih, follows_call ih, follows_enter ih⟩

/-- A program that matches another one follows it. -/
theorem follows_interpret (n : Nat) :
    ∀ {p p' : Program} {w : List Nat}, Stmt.AllMatches M.respells M.uses p p' →
      M.Follows (fun _ _ _ => True) n w (interpret (Access.distances M.table).steps n p)
        fun k => interpret (Access.distances M.table').steps k p' := by
  intro p
  induction p with
  | nil =>
    intro p' w matching
    cases matching
    exact follows_pure trivial
  | cons s rest ih =>
    intro p' w matching
    cases matching with
    | cons head tail =>
      refine Follows.bind (P := fun _ _ _ => True) ?_ fun w' further _ _ _ => ih tail
      exact ((followsWith M n).exec head).bind fun _ _ _ _ ended => follows_expectFinished ended

end Matching

end Lox
