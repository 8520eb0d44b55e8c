import Lox.Proofs.Jumps.Continuations

/-!
# Completions are jumps

A run that hands on how each statement ended is a run by jumps. Whatever a statement is to go on
with, jumping there is the same as running the statement and going on as its end tells; so a run by
jumps with given calls around it is the plain run with those calls added to its errors, followed by
the rest. The two need the same fuel at every place, and a run that never ends has no end by jumps
either.
-/

namespace Lox

open Running

variable {σ ω α β : Type}

/-- Goes on as the end of a statement tells. -/
def Exits.goOn (exits : Exits σ ω) : Completion → RunningOn σ ω
  | .finished => exits.next
  | .broken => exits.leaveLoop
  | .continued => exits.nextRound
  | .returned v => exits.leaveCall v

namespace Jumping

/-! ## Calls around a run -/

section
variable (calls : List CallStep)

@[simp]
theorem inCalls_pure (a : α) : inCalls calls (pure a : RunningOn σ α) = pure a := rfl

/-- What is no error is not told the calls. -/
theorem inCalls_throw {stop : Stop} (untold : ∀ step, stop.inCall step = stop) :
    inCalls calls (throw stop : RunningOn σ α) = throw stop := by
  have outside : calls.foldr Stop.inCall stop = stop := by
    induction calls with
    | nil => rfl
    | cons step rest ih => rw [List.foldr_cons, ih, untold step]
  show (fun s => EStateM.Result.error (calls.foldr Stop.inCall stop) s) = _
  rw [outside]
  rfl

@[simp]
theorem inCalls_fault (fault : Fault) :
    inCalls calls (throw (.fault fault) : RunningOn σ α) = throw (.fault fault) :=
  inCalls_throw calls fun _ => rfl

@[simp]
theorem inCalls_outOfFuel :
    inCalls calls (throw .outOfFuel : RunningOn σ α) = throw .outOfFuel :=
  inCalls_throw calls fun _ => rfl

@[simp]
theorem throw_bind (stop : Stop) (f : α → RunningOn σ β) :
    (throw stop >>= f) = throw stop := rfl

@[simp]
theorem inCalls_bind (run : RunningOn σ α) (f : α → RunningOn σ β) :
    inCalls calls (run >>= f) = inCalls calls run >>= fun a => inCalls calls (f a) := by
  funext s
  show EStateM.adaptExcept _ (EStateM.bind run f) s = EStateM.bind (inCalls calls run) _ s
  unfold inCalls EStateM.bind EStateM.adaptExcept
  dsimp only
  cases run s <;> rfl

/-- The innermost of the calls can be added before the others. -/
theorem inCalls_concat (step : CallStep) (run : RunningOn σ α) :
    inCalls (calls ++ [step]) run = inCalls calls (inCall step run) := by
  funext s
  unfold inCalls inCall EStateM.adaptExcept
  cases run s with
  | ok a s => rfl
  | error stop s => simp only [List.foldr_append, List.foldr_cons, List.foldr_nil]

end

theorem inCalls_nil (run : RunningOn σ α) : inCalls [] run = run := by
  funext s
  unfold inCalls EStateM.adaptExcept
  cases run s <;> rfl

/-! ## One part behind the other -/

section
variable {calls : List CallStep}

/-- Statements that jump as they end do so one behind the other. -/
theorem inOrder_same {jump : Stmt → Exits σ ω → RunningOn σ ω} {run : Stmt → RunningOn σ Completion}
    (same : ∀ s exits, jump s exits = inCalls calls (run s) >>= exits.goOn) (statements : List Stmt)
    (exits : Exits σ ω) :
    inOrder jump statements exits = inCalls calls (Running.inOrder run statements) >>= exits.goOn := by
  induction statements with
  | nil => rfl
  | cons s rest ih =>
    rw [inOrder, same, ih, Running.inOrder, inCalls_bind, bind_assoc]
    congr 1
    funext ended
    cases ended <;> rfl

/-- Expressions that go on with their values do so one behind the other. -/
theorem evalAll_same {jump : Expr → (Value → RunningOn σ ω) → RunningOn σ ω}
    {run : Expr → RunningOn σ Value}
    (same : ∀ e goOn, jump e goOn = inCalls calls (run e) >>= goOn) (es : List Expr)
    (goOn : List Value → RunningOn σ ω) :
    evalAll jump es goOn = inCalls calls (es.mapM run) >>= goOn := by
  induction es generalizing goOn with
  | nil => rfl
  | cons e rest ih => simp only [evalAll, same, ih, List.mapM_cons, inCalls_bind, inCalls_pure,
      bind_assoc, pure_bind]

end

/-! ## Runs of the same fuel -/

/-- Whatever a part of a program is to go on with, jumping there is running the part and going on. -/
structure Same (steps : Steps σ) (ω : Type) (n : Nat) : Prop where
  exec : ∀ calls env s (exits : Exits σ ω),
    exec steps n calls env s exits = inCalls calls (Lox.exec steps n env s) >>= exits.goOn
  rounds : ∀ calls env condition body increment (exits : Exits σ ω),
    rounds steps n calls env condition body increment exits =
      inCalls calls (Lox.rounds steps n env condition body increment) >>= exits.goOn
  eval : ∀ calls env e (goOn : Value → RunningOn σ ω),
    eval steps n calls env e goOn = inCalls calls (Lox.eval steps n env e) >>= goOn
  call : ∀ calls f vs line (goOn : Value → RunningOn σ ω),
    call steps n calls f vs line goOn = inCalls calls (Lox.call steps n f vs line) >>= goOn
  enter : ∀ calls c vs (goOn : Value → RunningOn σ ω),
    enter steps n calls c vs goOn = inCalls calls (Lox.enter steps n c vs) >>= goOn

section
variable {steps : Steps σ} {n : Nat} (below : Same steps ω n) (calls : List CallStep) (env : Env)
include below

private theorem exec_same (s : Stmt) (exits : Exits σ ω) :
    exec steps (n + 1) calls env s exits =
      inCalls calls (Lox.exec steps (n + 1) env s) >>= exits.goOn := by
  cases s with
  | expression e =>
    simp only [exec, Lox.exec, below.eval, inCalls_bind, inCalls_pure, bind_assoc, pure_bind,
      Exits.goOn]
  | declaration name initializer =>
    cases initializer <;>
      simp only [exec, Lox.exec, below.eval, inCalls_bind, inCalls_pure, bind_assoc, pure_bind,
        Exits.goOn]
  | block statements =>
    have inside (inner : Env) := inOrder_same (below.exec calls inner) statements exits
    simp only [exec, Lox.exec, inside, inCalls_bind, bind_assoc]
  | ifElse condition thenBranch elseBranch =>
    simp only [exec, Lox.exec, below.eval, inCalls_bind, bind_assoc]
    congr 1
    funext v
    congr 1
    funext _
    by_cases holds : v.truthy
    · simp only [holds, if_true, below.exec]
    · cases elseBranch with
      | none => simp [holds, Exits.goOn]
      | some s => simp [holds, below.exec]
  | whileLoop condition body increment => exact below.rounds calls env condition body increment exits
  | breakLoop keyword => rfl
  | continueLoop keyword => rfl
  | returnValue keyword value =>
    cases value with
    | none => rfl
    | some e =>
      simp only [exec, Lox.exec, below.eval, inCalls_bind, inCalls_pure, bind_assoc, pure_bind,
        Exits.goOn]
  | misplaced kind => simp [exec, Lox.exec]

private theorem rounds_same (condition : Expr) (body : Stmt) (increment : Option Expr)
    (exits : Exits σ ω) :
    rounds steps (n + 1) calls env condition body increment exits =
      inCalls calls (Lox.rounds steps (n + 1) env condition body increment) >>= exits.goOn := by
  simp only [rounds, Lox.rounds, below.eval, inCalls_bind, bind_assoc]
  congr 1
  funext v
  by_cases holds : v.truthy
  · simp only [holds, if_true, below.exec, inCalls_bind, bind_assoc]
    congr 1
    funext ended
    -- A break goes on behind the loop, a return behind the call, and any other end with the increment.
    cases ended with
    | broken => rfl
    | returned v => rfl
    | finished | continued => cases increment <;> simp [Exits.goOn, below.rounds]
  · simp [holds, Exits.goOn]

private theorem eval_same (e : Expr) (goOn : Value → RunningOn σ ω) :
    eval steps (n + 1) calls env e goOn =
      inCalls calls (Lox.eval steps (n + 1) env e) >>= goOn := by
  cases e with
  | literal id value => rfl
  | grouping id inner => exact below.eval calls env inner goOn
  | unary id operator right => simp [eval, Lox.eval, below.eval]
  | binary id left operator right => simp [eval, Lox.eval, below.eval]
  | logical id left operator right =>
    simp only [eval, Lox.eval, below.eval, inCalls_bind, bind_assoc]
    congr 1
    funext v
    by_cases settled : v.settles operator
    · simp [settled]
    · simp [settled]
  | step id left operator =>
    cases left with
    | reference use name =>
      simp only [eval, Lox.eval, inCalls_bind, inCalls_pure, bind_assoc, pure_bind]
    | _ => rfl
  | reference id name => rfl
  | assignment id name value =>
    simp only [eval, Lox.eval, below.eval, inCalls_bind, inCalls_pure, bind_assoc, pure_bind]
  | call id callee arguments paren =>
    have each := evalAll_same (below.eval calls env) arguments
    simp [eval, Lox.eval, below.eval, below.call, each]
  | lambda id keyword params body name => rfl
  | misplaced kind => simp [eval, Lox.eval]

private theorem call_same (f : Value) (vs : List Value) (line : Int) (goOn : Value → RunningOn σ ω) :
    call steps (n + 1) calls f vs line goOn =
      inCalls calls (Lox.call steps (n + 1) f vs line) >>= goOn := by
  cases f with
  | closure c => simp [call, Lox.call, below.enter, inCalls_concat]
  | native f => simp [call, Lox.call, inCalls_concat]
  | nil | bool | num | str => rfl

private theorem enter_same (c : Closure) (vs : List Value) (goOn : Value → RunningOn σ ω) :
    enter steps (n + 1) calls c vs goOn =
      inCalls calls (Lox.enter steps (n + 1) c vs) >>= goOn := by
  let inside := calls ++ [.calling c.name c.keyword.line]
  have left : (exitsOfCall inside goOn).goOn =
      fun ended => inCalls inside (valueOf ended) >>= goOn := by
    funext ended
    cases ended <;> rfl
  have body (env : Env) :=
    inOrder_same (below.exec inside env) c.body (exitsOfCall inside goOn)
  simp only [enter, Lox.enter, inCalls_bind, ← inCalls_concat, bind_assoc]
  congr 1
  funext env
  rw [body env, left]

end

/-- At every fuel, running by jumps is running and going on. -/
theorem same (steps : Steps σ) (ω : Type) (n : Nat) : Same steps ω n := by
  induction n with
  | zero =>
    constructor
    · intro calls env s exits
      simp [exec, Lox.exec]
    · intro calls env condition body increment exits
      simp [rounds, Lox.rounds]
    · intro calls env e goOn
      simp [eval, Lox.eval]
    · intro calls f vs line goOn
      simp [call, Lox.call]
    · intro calls c vs goOn
      simp [enter, Lox.enter]
  | succ n ih =>
    exact ⟨exec_same ih, rounds_same ih, eval_same ih, call_same ih, enter_same ih⟩

/-- A program run by jumps does what it does when its statements tell how they ended. -/
theorem interpret_eq (steps : Steps σ) (fuel : Nat) (p : Program) :
    interpret steps fuel p = Lox.interpret steps fuel p := by
  have jumped := inOrder_same ((same steps Unit fuel).exec [] .global) p exitsOfProgram
  rw [interpret, jumped, inCalls_nil, Lox.interpret]
  clear jumped
  induction p with
  | nil => rfl
  | cons s rest ih =>
    rw [List.forM, ← ih, Running.inOrder, bind_assoc, bind_assoc]
    congr 1
    funext ended
    cases ended <;> rfl

end Jumping

/-- A program text has the same effect on a session, and ends the same way with the same error in the
same calls, whether its statements tell how they ended or jump; and neither way ends if the other
does not. -/
theorem run_by_jumps (s : Session) (fuel : Nat) (source : String) :
    s.after (Acting.runByJumps fuel source) = s.after (Acting.run fuel source) := by
  have same (p : Program) : (fun steps : Steps Machine => Jumping.interpret steps fuel p) =
      fun steps => interpret steps fuel p := by
    funext steps
    exact Jumping.interpret_eq steps fuel p
  unfold Acting.runByJumps Acting.run
  simp only [same]

end Lox
