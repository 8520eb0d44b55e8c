import Lox.Proofs.Folding.Machines
import Lox.Proofs.Folding.Scopes
import Lox.Proofs.Renaming.Runs

/-!
# Runs of folded programs

The loop that is folded and the one that it becomes do the same in every round: what follows the
body of the former is in the latter behind the body, and before each `continue`. Everything else runs
as it did, among more frames.
-/

namespace Lox

open Running

variable {T T' : Distances} {n : Nat} {w w' : List Ref}

/-! ## What follows on a statement -/

/-- Two statements end in the same way. -/
inductive Completion.Moved (T T' : Distances) (w : List Ref) : Completion → Completion → Prop
  | finished : Completion.Moved T T' w .finished .finished
  | broken : Completion.Moved T T' w .broken .broken
  | continued : Completion.Moved T T' w .continued .continued
  | returned {v v' : Value} (values : v.Moved T T' w v') :
      Completion.Moved T T' w (.returned v) (.returned v')

/-- Two loops end in the same way; what is meant for a loop is taken by it. -/
inductive Completion.LeftLoop (T T' : Distances) (w : List Ref) : Completion → Completion → Prop
  | finished : Completion.LeftLoop T T' w .finished .finished
  | returned {v v' : Value} (values : v.Moved T T' w v') :
      Completion.LeftLoop T T' w (.returned v) (.returned v')

/-- Evaluates the increment of a folded loop, if there is one around, once the next round of the
loop has been asked for. -/
def resume (again : Option (Running Value)) : Completion → Running Completion
  | .continued =>
    match again with
    | some increment => do
      let _ ← increment
      return .continued
    | none => return .continued
  | ended => return ended

/-- Evaluates the increment of a folded loop once the body of the loop has finished. -/
def advance (increment : Running Value) : Completion → Running Completion
  | .finished => do
    let _ ← increment
    return .finished
  | ended => return ended

/-- The increment of a loop can be evaluated with the body, however that goes on with the loop. -/
theorem rounds_advance (steps : Steps Machine) (n : Nat) (env : Env) (e : Expr) (s : Stmt)
    (r : Expr) :
    rounds steps (n + 1) env e s (some r) = do
      let v ← eval steps n env e
      if v.truthy then
        match ← exec steps n env s >>= resume (some (eval steps n env r)) >>=
          advance (eval steps n env r) with
        | .broken => return .finished
        | .returned v => return .returned v
        | _ => rounds steps n env e s (some r)
      else return .finished := by
  simp only [rounds, bind_assoc]
  refine bind_congr fun v => ?_
  congr 1
  refine bind_congr fun ended => ?_
  cases ended with
  | finished => simp [resume, advance]
  | continued => simp [resume, advance]
  | broken => rfl
  | returned v => rfl

theorem resume_none : resume none = pure := by
  funext ended
  cases ended <;> rfl

/-- Nothing follows on a loop. -/
theorem trails_leftLoop {c c' : Completion} (again : Option (Running Value))
    (left : c.LeftLoop T T' w c') :
    Trails (Machine.Moved T T') (Completion.Moved T T') n w (resume again c) fun _ => pure c' := by
  cases left with
  | finished => exact trails_pure .finished
  | returned values => exact trails_pure (.returned values)

/-- One statement in order is the statement alone. -/
theorem inOrder_singleton (exec : Stmt → Running Completion) (s : Stmt) :
    inOrder exec [s] = exec s := by
  refine (bind_congr fun ended => ?_).trans (bind_pure (exec s))
  cases ended <;> rfl

/-- In a list of statements the increment can be evaluated behind the one that asks for the next
round. -/
theorem inOrder_resume (again : Option (Running Value)) (exec : Stmt → Running Completion)
    (ss : List Stmt) :
    inOrder exec ss >>= resume again = inOrder (fun s => exec s >>= resume again) ss := by
  induction ss with
  | nil => rfl
  | cons s rest ih =>
    simp only [inOrder, bind_assoc]
    refine bind_congr fun ended => ?_
    cases ended with
    | finished => exact ih
    | continued =>
      cases again with
      | none => rfl
      | some increment => simp [resume]
    | broken => rfl
    | returned v => rfl

/-- The increment of a folded loop around a place, as it is evaluated outside of the body of the
loop: its copies are never ahead of it. -/
inductive Resumes (T T' : Distances) (n : Nat) (w : List Ref) (env' : Env) :
    Resumption → Option (Running Value) → Prop
  | none : Resumes T T' n w env' none none
  | some {r : Expr} {R : Layers} {outer : Env} {increment : Running Value}
      (moved : outer.Moved w R env')
      (copies : ∀ {w' L inner' r'}, w <+: w' → outer.Moved w' L inner' → Expr.Moved T T' L r r' →
        Trails (Machine.Moved T T') (Value.Moved T T') n w' increment
          fun k => eval (Access.distances T').steps k inner' r') :
      Resumes T T' n w env' (some (r, R)) (some increment)

namespace Resumes

variable {env' : Env} {onward : Resumption} {again : Option (Running Value)}

theorem later (further : w <+: w') (resumes : Resumes T T' n w env' onward again) :
    Resumes T T' n w' env' onward again := by
  cases resumes with
  | none => exact .none
  | some moved copies =>
    exact .some (moved.later further) fun further' => copies (further.trans further')

theorem mono {n' : Nat} (less : n' ≤ n) (resumes : Resumes T T' n w env' onward again) :
    Resumes T T' n' w env' onward again := by
  cases resumes with
  | none => exact .none
  | some moved copies =>
    exact .some moved fun further inner folded => (copies further inner folded).mono less

theorem enter {inner' : Env} (outer : inner'.outer = env'.chain)
    (resumes : Resumes T T' n w env' onward again) :
    Resumes T T' n w inner' onward.enter again := by
  cases resumes with
  | none => exact .none
  | @some r R outerEnv increment moved copies =>
    have entered : outerEnv.Moved w (.extra :: R) inner' := by
      unfold Env.Moved Env.chain
      rw [outer]
      exact .extra moved
    exact .some entered copies

end Resumes

/-! ## Parts of runs -/

theorem trails_ofResult (line : Int) {result : Except RuntimeError.Cause Value}
    (plain : ∀ v, result = .ok v → v.Plain) :
    Trails (Machine.Moved T T') (Value.Moved T T') n w (ofResult line result)
      fun _ => ofResult line result := by
  cases result with
  | ok v => exact trails_pure (.plain (plain v rfl))
  | error cause => exact trails_fail cause (some line)

theorem trails_valueOf {c c' : Completion} (moved : c.Moved T T' w c') :
    Trails (Machine.Moved T T') (Value.Moved T T') n w (valueOf c) fun _ => valueOf c' := by
  cases moved with
  | finished => exact trails_pure (.plain (Value.plain_ofLiteral .nil))
  | returned values => exact trails_pure values
  | broken | continued => exact trails_fail _ none

theorem trails_expectFinished {c c' : Completion} (moved : c.Moved T T' w c') :
    Trails (Machine.Moved T T') (fun _ _ _ => True) n w (expectFinished c)
      fun _ => expectFinished c' := by
  cases moved with
  | finished => exact trails_pure trivial
  | returned | broken | continued => exact trails_fail _ none

section
variable {L : Layers} {env env' : Env}

/-- Statements run one after the other if each of them does. -/
theorem trails_inOrder {onward : Resumption} {again : Option (Running Value)}
    {exec : Stmt → Running Completion} {exec' : Nat → Stmt → Running Completion}
    (each : ∀ {w s s'}, env.Moved w L env' → Stmt.Moved T T' L onward s s' →
      Resumes T T' n w env' onward again →
      Trails (Machine.Moved T T') (Completion.Moved T T') n w (exec s) fun k => exec' k s') :
    ∀ {ss ss' : List Stmt} {w : List Ref}, env.Moved w L env' →
      Stmt.AllMoved T T' L onward ss ss' → Resumes T T' n w env' onward again →
      Trails (Machine.Moved T T') (Completion.Moved T T') n w (inOrder exec ss)
        fun k => inOrder (exec' k) ss' := by
  intro ss
  induction ss with
  | nil =>
    intro ss' w envs moved resumes
    cases moved
    exact trails_pure .finished
  | cons s rest ih =>
    intro ss' w envs moved resumes
    cases moved with
    | cons head tail =>
      refine (each envs head resumes).bind fun w' further c c' ended => ?_
      cases ended with
      | finished => exact ih (envs.later further) tail (resumes.later further)
      | broken => exact trails_pure .broken
      | continued => exact trails_pure .continued
      | returned values => exact trails_pure (.returned values)

/-- Expressions are evaluated one after the other if each of them is. -/
theorem trails_mapM {eval : Expr → Running Value} {eval' : Nat → Expr → Running Value}
    (each : ∀ {w e e'}, env.Moved w L env' → Expr.Moved T T' L e e' →
      Trails (Machine.Moved T T') (Value.Moved T T') n w (eval e) fun k => eval' k e') :
    ∀ {es es' : List Expr} {w : List Ref}, env.Moved w L env' → Expr.AllMoved T T' L es es' →
      Trails (Machine.Moved T T') (fun w => List.Forall₂ (Value.Moved T T' w)) n w (es.mapM eval)
        fun k => es'.mapM (eval' k) := by
  intro es
  induction es with
  | nil =>
    intro es' w envs moved
    cases moved
    exact trails_pure .nil
  | cons e rest ih =>
    intro es' w envs moved
    cases moved with
    | cons head tail =>
      simp only [List.mapM_cons]
      refine (each envs head).bind fun w' further v v' value => ?_
      refine (ih (envs.later further) tail).bind fun w'' further' vs vs' values => ?_
      exact trails_pure (.cons (value.later further') values)

end

/-! ## Runs of folded trees -/

/-- With an amount of fuel for the runs of trees, those of the folded trees are behind them. -/
structure TrailsWith (T T' : Distances) (n : Nat) : Prop where
  exec : ∀ {w L onward env env' s s' again}, Env.Moved w L env env' →
    Stmt.Moved T T' L onward s s' → Resumes T T' n w env' onward again →
    Trails (Machine.Moved T T') (Completion.Moved T T') n w
      (exec (Access.distances T).steps n env s >>= resume again)
      fun k => exec (Access.distances T').steps k env' s'
  folded : ∀ {w L env env' e e' r r' ss ss'}, Env.Moved w L env env' → Expr.Moved T T' L e e' →
    Stmt.Moved T T' (.extra :: L) (some (r, .extra :: L)) (.block ss) (.block ss') →
    Expr.Moved T T' (.extra :: L) r r' →
    Trails (Machine.Moved T T') (Completion.LeftLoop T T') n w
      (rounds (Access.distances T).steps n env e (.block ss) (some r))
      fun k => rounds (Access.distances T').steps k env' e'
        (.block [.block ss', .expression r']) none
  rounds : ∀ {w L env env' e e' s s' f f'}, Env.Moved w L env env' → Expr.Moved T T' L e e' →
    Stmt.Moved T T' L none s s' → Expr.OptionMoved T T' L f f' →
    Trails (Machine.Moved T T') (Completion.LeftLoop T T') n w
      (rounds (Access.distances T).steps n env e s f)
      fun k => rounds (Access.distances T').steps k env' e' s' f'
  eval : ∀ {w L env env' e e'}, Env.Moved w L env env' → Expr.Moved T T' L e e' →
    Trails (Machine.Moved T T') (Value.Moved T T') n w (eval (Access.distances T).steps n env e)
      fun k => eval (Access.distances T').steps k env' e'
  call : ∀ {w f f' vs vs'}, Value.Moved T T' w f f' → List.Forall₂ (Value.Moved T T' w) vs vs' →
    ∀ line, Trails (Machine.Moved T T') (Value.Moved T T') n w
      (call (Access.distances T).steps n f vs line)
      fun k => call (Access.distances T').steps k f' vs' line
  enter : ∀ {w c c' vs vs'}, Closure.Moved T T' w c c' →
    List.Forall₂ (Value.Moved T T' w) vs vs' →
    Trails (Machine.Moved T T') (Value.Moved T T') n w (enter (Access.distances T).steps n c vs)
      fun k => enter (Access.distances T').steps k c' vs'

section Steps
variable {L : Layers} {env env' : Env} (below : TrailsWith T T' n)
include below

/-- Statements one after the other are behind the same ones with increments after them. -/
private theorem trails_statements {onward : Resumption} {again : Option (Running Value)}
    {ss ss' : List Stmt} (envs : env.Moved w L env') (moved : Stmt.AllMoved T T' L onward ss ss')
    (resumes : Resumes T T' n w env' onward again) :
    Trails (Machine.Moved T T') (Completion.Moved T T') n w
      (inOrder (exec (Access.distances T).steps n env) ss >>= resume again)
      fun k => inOrder (exec (Access.distances T').steps k env') ss' := by
  rw [inOrder_resume]
  exact trails_inOrder below.exec envs moved resumes

omit below in
/-- An increment is behind itself as a statement. -/
private theorem trails_increment {increment : Running Value} {r' : Expr}
    (evaluated : Trails (Machine.Moved T T') (Value.Moved T T') n w increment
      fun k => eval (Access.distances T').steps k env' r') :
    Trails (Machine.Moved T T') (fun _ _ ended => ended = .finished) n w increment
      fun k => exec (Access.distances T').steps k env' (.expression r') := by
  refine (Trails.delayed rfl ?_).mono n.le_succ
  exact evaluated.bind_right fun _ _ _ _ _ => trails_pure rfl

private theorem trails_exec {onward : Resumption} {again : Option (Running Value)} {s s' : Stmt}
    (envs : env.Moved w L env') (moved : Stmt.Moved T T' L onward s s')
    (resumes : Resumes T T' (n + 1) w env' onward again) :
    Trails (Machine.Moved T T') (Completion.Moved T T') (n + 1) w
      (exec (Access.distances T).steps (n + 1) env s >>= resume again)
      fun k => exec (Access.distances T').steps k env' s' := by
  refine Trails.delayed rfl ?_
  replace resumes := resumes.mono n.le_succ
  cases moved with
  | expression value =>
    simp only [exec, bind_assoc, pure_bind, resume]
    exact (below.eval envs value).bind fun _ _ _ _ _ => trails_pure .finished
  | declaration name declares initializer =>
    have defined {w' : List Ref} {v v' : Value} (further : w <+: w')
        (values : v.Moved T T' w' v') :=
      (trails_define (n := n) (envs.later further) declares name values).bind
        fun _ _ _ _ _ => trails_pure (P := Completion.Moved T T') .finished
    cases initializer with
    | none =>
      simp only [exec, bind_assoc, pure_bind, resume]
      exact defined List.prefix_rfl (.plain (Value.plain_ofLiteral .nil))
    | some value =>
      simp only [exec, bind_assoc, pure_bind, resume]
      exact (below.eval envs value).bind fun w' further v v' values => defined further values
  | block statements =>
    simp only [exec, bind_assoc]
    refine (trails_newFrame envs).bind fun w' further inner inner' ⟨entered, outer⟩ => ?_
    exact trails_statements below entered statements ((resumes.later further).enter outer)
  | ifElse condition thenBranch elseBranch =>
    simp only [exec, bind_assoc]
    refine (below.eval envs condition).bind fun w' further v v' value => ?_
    refine (trails_note _ _).bind fun w'' further' _ _ _ => ?_
    have envs := (envs.later further).later further'
    have resumes := (resumes.later further).later further'
    rw [value.truthy]
    cases v.truthy with
    | true => exact below.exec envs thenBranch resumes
    | false =>
      cases elseBranch with
      | none => exact trails_pure .finished
      | some branch => exact below.exec envs branch resumes
  | whileLoop condition body increment =>
    have ran := below.rounds envs condition body increment
    exact ran.bind_left fun _ _ _ _ left => trails_leftLoop again left
  | foldedLoop condition body increment =>
    have ran := below.folded envs condition body increment
    exact ran.bind_left fun _ _ _ _ left => trails_leftLoop again left
  | breakLoop keyword => exact trails_pure .broken
  | continueLoop keyword =>
    cases resumes
    exact trails_pure .continued
  | foldedContinue keyword increment =>
    cases resumes with
    | some outer copies =>
      -- What the loop would evaluate outside of its body stands in a block inside of it now.
      refine trails_extraFrame outer fun inner entered => ?_
      refine (trails_increment (copies List.prefix_rfl entered increment)).bind ?_
      rintro w' further v c rfl
      simp only [inOrder_singleton]
      exact (Trails.delayed rfl (trails_pure .continued)).mono n.le_succ
  | returnValue keyword value =>
    cases value with
    | none => exact trails_pure (.returned (.plain (Value.plain_ofLiteral .nil)))
    | some value =>
      simp only [exec, bind_assoc, pure_bind, resume]
      exact (below.eval envs value).bind fun _ _ _ _ value => trails_pure (.returned value)
  | misplaced kind => exact trails_throw nofun

/-- The body of a folded loop with the increment behind it, and the increment evaluated after the
body. -/
private theorem trails_body {r r' : Expr} {ss ss' : List Stmt} (envs : env.Moved w L env')
    (body : Stmt.Moved T T' (.extra :: L) (some (r, .extra :: L)) (.block ss) (.block ss'))
    (increment : Expr.Moved T T' (.extra :: L) r r') :
    Trails (Machine.Moved T T') (Completion.Moved T T') n w
      (exec (Access.distances T).steps n env (.block ss) >>=
        resume (some (eval (Access.distances T).steps n env r)) >>=
        advance (eval (Access.distances T).steps n env r))
      fun k => exec (Access.distances T').steps k env' (.block [.block ss', .expression r']) := by
  -- The block around the body and the increment is one that the program before does not have.
  refine (Trails.delayed rfl ?_).mono n.le_succ
  refine trails_extraFrame envs fun inner entered => ?_
  have copies : Resumes T T' n w inner (some (r, .extra :: L))
      (some (eval (Access.distances T).steps n env r)) :=
    .some entered fun further copied => below.eval copied
  refine (below.exec entered body copies).bind fun w' further c c' ended => ?_
  cases ended with
  | finished =>
    simp only [inOrder_singleton]
    have last := trails_increment (below.eval (entered.later further) increment)
    refine last.bind_left ?_
    rintro w'' further' v c rfl
    exact trails_pure .finished
  | broken => exact trails_pure .broken
  | continued => exact trails_pure .continued
  | returned values => exact trails_pure (.returned values)

private theorem trails_folded {e e' r r' : Expr} {ss ss' : List Stmt} (envs : env.Moved w L env')
    (condition : Expr.Moved T T' L e e')
    (body : Stmt.Moved T T' (.extra :: L) (some (r, .extra :: L)) (.block ss) (.block ss'))
    (increment : Expr.Moved T T' (.extra :: L) r r') :
    Trails (Machine.Moved T T') (Completion.LeftLoop T T') (n + 1) w
      (rounds (Access.distances T).steps (n + 1) env e (.block ss) (some r))
      fun k => rounds (Access.distances T').steps k env' e'
        (.block [.block ss', .expression r']) none := by
  refine Trails.delayed rfl ?_
  rw [rounds_advance]
  refine (below.eval envs condition).bind fun w' further v v' value => ?_
  have envs := envs.later further
  rw [value.truthy]
  by_cases holds : v.truthy
  · simp only [holds, if_true]
    refine (trails_body below envs body increment).bind fun w'' further' c c' ended => ?_
    have again := below.folded (envs.later further') condition body increment
    cases ended with
    | broken => exact trails_pure .finished
    | returned values => exact trails_pure (.returned values)
    | finished => exact again
    | continued => exact again
  · simp only [holds, Bool.false_eq_true, if_false]
    exact trails_pure .finished

private theorem trails_rounds {e e' : Expr} {s s' : Stmt} {f f' : Option Expr}
    (envs : env.Moved w L env') (condition : Expr.Moved T T' L e e')
    (body : Stmt.Moved T T' L none s s') (increment : Expr.OptionMoved T T' L f f') :
    Trails (Machine.Moved T T') (Completion.LeftLoop T T') (n + 1) w
      (rounds (Access.distances T).steps (n + 1) env e s f)
      fun k => rounds (Access.distances T').steps k env' e' s' f' := by
  refine Trails.delayed rfl ?_
  refine (below.eval envs condition).bind fun w' further v v' value => ?_
  have envs := envs.later further
  rw [value.truthy]
  by_cases holds : v.truthy
  · simp only [holds, if_true]
    have ran := below.exec envs body .none
    simp only [resume_none, bind_pure] at ran
    refine ran.bind fun w'' further' c c' ended => ?_
    have envs := envs.later further'
    have again {w : List Ref} (envs : env.Moved w L env') :=
      below.rounds envs condition body increment
    cases ended with
    | broken => exact trails_pure .finished
    | returned values => exact trails_pure (.returned values)
    | finished | continued =>
      cases increment with
      | none => exact again envs
      | some onward =>
        exact (below.eval envs onward).bind fun _ further _ _ _ => again (envs.later further)
  · simp only [holds, Bool.false_eq_true, if_false]
    exact trails_pure .finished

private theorem trails_eval {e e' : Expr} (envs : env.Moved w L env')
    (moved : Expr.Moved T T' L e e') :
    Trails (Machine.Moved T T') (Value.Moved T T') (n + 1) w
      (eval (Access.distances T).steps (n + 1) env e)
      fun k => eval (Access.distances T').steps k env' e' := by
  refine Trails.delayed rfl ?_
  cases moved with
  | literal id id' value => exact trails_pure (.plain (Value.plain_ofLiteral value))
  | grouping _ _ inner => exact below.eval envs inner
  | unary _ _ operator right =>
    refine (below.eval envs right).bind fun w' further v v' value => ?_
    rw [value.unary]
    exact trails_ofResult operator.line fun _ => Value.plain_unary
  | binary _ _ operator left right =>
    refine (below.eval envs left).bind fun w' further v v' value => ?_
    refine (below.eval (envs.later further) right).bind fun w'' further' u u' value' => ?_
    rw [(value.later further').binary value']
    exact trails_ofResult operator.line fun _ => Value.plain_binary
  | logical _ _ operator left right =>
    refine (below.eval envs left).bind fun w' further v v' value => ?_
    rw [value.settles]
    cases v.settles operator with
    | true => exact trails_pure value
    | false => exact below.eval (envs.later further) right
  | step _ _ operator left =>
    cases left with
    | reference name use =>
      refine (trails_lookUp envs use name).bind fun w' further v v' value => ?_
      rw [value.step]
      refine (trails_ofResult operator.line fun _ => Value.plain_step).bind
        fun w'' further' u u' value' => ?_
      have envs := (envs.later further).later further'
      refine (trails_assign envs use name value').bind fun _ further'' _ _ _ => ?_
      exact trails_pure (value'.later further'')
    | _ => exact trails_fail _ (some operator.line)
  | reference name use => exact trails_lookUp envs use name
  | assignment name value use =>
    refine (below.eval envs value).bind fun w' further v v' value => ?_
    refine (trails_assign (envs.later further) use name value).bind fun _ further' _ _ _ => ?_
    exact trails_pure (value.later further')
  | call _ _ paren callee arguments =>
    refine (below.eval envs callee).bind fun w' further f f' function => ?_
    refine (trails_mapM below.eval (envs.later further) arguments).bind
      fun w'' further' vs vs' values => ?_
    exact below.call (function.later further') values paren.line
  | lambda _ _ keyword params name statements =>
    exact trails_close envs keyword params statements name
  | misplaced kind => exact trails_throw nofun

private theorem trails_call {f f' : Value} {vs vs' : List Value} (function : f.Moved T T' w f')
    (values : List.Forall₂ (Value.Moved T T' w) vs vs') (line : Int) :
    Trails (Machine.Moved T T') (Value.Moved T T') (n + 1) w
      (call (Access.distances T).steps (n + 1) f vs line)
      fun k => call (Access.distances T').steps k f' vs' line := by
  refine Trails.delayed rfl ?_
  have later {w' : List Ref} (further : w <+: w') : List.Forall₂ (Value.Moved T T' w') vs vs' :=
    values.imp fun _ _ value => value.later further
  cases function with
  | closure moved =>
    simp only [call]
    rw [show Closure.arity _ = Closure.arity _ from congrArg List.length moved.params,
      ← values.length_eq]
    refine (trails_checkArity _ _ line).bind fun w' further _ _ _ => ?_
    refine (trails_note _ _).bind fun w'' further' _ _ _ => ?_
    have further := further.trans further'
    exact (below.enter (moved.later further) (later further)).inCall (.line line)
  | plain plain =>
    cases f with
    | closure c => exact absurd rfl (plain c)
    | native f =>
      simp only [call]
      rw [← values.length_eq]
      refine (trails_checkArity _ _ line).bind fun w' further _ _ _ => ?_
      refine (trails_note _ _).bind fun w'' further' _ _ _ => ?_
      exact (trails_callNative f (later (further.trans further'))).inCall (.line line)
    | nil | bool | num | str => exact trails_fail _ (some line)

private theorem trails_enter {c c' : Closure} {vs vs' : List Value} (function : c.Moved T T' w c')
    (values : List.Forall₂ (Value.Moved T T' w) vs vs') :
    Trails (Machine.Moved T T') (Value.Moved T T') (n + 1) w
      (enter (Access.distances T).steps (n + 1) c vs)
      fun k => enter (Access.distances T').steps k c' vs' := by
  refine Trails.delayed rfl ?_
  obtain ⟨L, envs, body⟩ := function.function
  refine (trails_bindArguments envs function.params values).bind
    fun w' further inner inner' entered => ?_
  rw [function.name, function.keyword]
  refine Trails.inCall (.calling _ _) ?_
  refine Trails.bind ?_ fun w'' further' d d' ended => trails_valueOf ended
  have statements := trails_statements below entered body .none
  simpa only [resume_none, bind_pure] using statements

end Steps

/-- Runs of folded trees are behind those of the trees before, with every amount of fuel. -/
theorem trailsWith (T T' : Distances) (n : Nat) : TrailsWith T T' n := by
  induction n with
  | zero =>
    refine ⟨?_, ?_, ?_, ?_, ?_, ?_⟩
    · intro w L onward env env' s s' again _ _ _
      exact Trails.without_fuel rfl
    · intro w L env env' e e' r r' ss ss' _ _ _ _
      exact Trails.without_fuel rfl
    · intro w L env env' e e' s s' f f' _ _ _ _
      exact Trails.without_fuel rfl
    · intro w L env env' e e' _ _
      exact Trails.without_fuel rfl
    · intro w f f' vs vs' _ _ line
      exact Trails.without_fuel rfl
    · intro w c c' vs vs' _ _
      exact Trails.without_fuel rfl
  | succ n ih =>
    exact ⟨trails_exec ih, trails_folded ih, trails_rounds ih, trails_eval ih, trails_call ih,
      trails_enter ih⟩

/-- A folded program is behind the program before, among the global variables. -/
theorem trails_interpret (n : Nat) :
    ∀ {p p' : Program} {w : List Ref}, w[0]? = some 0 → Stmt.AllMoved T T' [] none p p' →
      Trails (Machine.Moved T T') (fun _ _ _ => True) n w
        (interpret (Access.distances T).steps n p)
        fun k => interpret (Access.distances T').steps k p' := by
  intro p
  induction p with
  | nil =>
    intro p' w first moved
    cases moved
    exact trails_pure trivial
  | cons s rest ih =>
    intro p' w first moved
    cases moved with
    | cons head tail =>
      refine Trails.bind (P := fun _ _ _ => True) ?_ fun w' further _ _ _ =>
        ih (getElem?_further further first) tail
      have root : Env.global.Moved w [] .global := Chained.global first
      have ran := (trailsWith T T' n).exec root head .none
      simp only [resume_none, bind_pure] at ran
      exact ran.bind fun w' further c c' ended => trails_expectFinished ended

end Lox
