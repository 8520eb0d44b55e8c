import Lox.Session

/-!
# Running programs by jumps

A second way to run programs, in which no statement hands anything back. A statement is given the
places where the run may go on after it: behind it, behind the innermost loop around it, at the next
round of that loop, and behind the call around it. An expression is given what is done with its
value. A jump is a run from one of these places, so that nothing in between sees it.

The calls around a place are a list that grows with every call, and an error that arises is told all
of them at once. Steps on the state are the same as those of any other run.
-/

namespace Lox

variable {σ ω α : Type}

/-- The places where a run may go on after a statement. -/
structure Exits (σ ω : Type) where
  /-- Behind the statement. -/
  next : RunningOn σ ω
  /-- Behind the innermost loop around the statement in the same function. -/
  leaveLoop : RunningOn σ ω
  /-- At the next round of that loop, before its increment. -/
  nextRound : RunningOn σ ω
  /-- Behind the call of the function around the statement, with the value of the call. -/
  leaveCall : Value → RunningOn σ ω

namespace Jumping

open Running

/-- Adds calls around an error, outermost first. -/
def inCalls (calls : List CallStep) (run : RunningOn σ α) : RunningOn σ α :=
  run.adaptExcept fun stop => calls.foldr Stop.inCall stop

/-- Runs statements one behind the other, given how each of them is run. -/
def inOrder (exec : Stmt → Exits σ ω → RunningOn σ ω) : List Stmt → Exits σ ω → RunningOn σ ω
  | [], exits => exits.next
  | s :: rest, exits => exec s { exits with next := inOrder exec rest exits }

/-- Evaluates expressions one behind the other, given how each of them is evaluated. -/
def evalAll (eval : Expr → (Value → RunningOn σ ω) → RunningOn σ ω) :
    List Expr → (List Value → RunningOn σ ω) → RunningOn σ ω
  | [], goOn => goOn []
  | e :: rest, goOn => eval e fun v => evalAll eval rest fun vs => goOn (v :: vs)

/-- The exits of a function: its end and a `return` leave the call, and there is no loop to leave. -/
def exitsOfCall (calls : List CallStep) (goOn : Value → RunningOn σ ω) : Exits σ ω where
  next := goOn .nil
  leaveLoop := inCalls calls (fail .strayLoopControl none)
  nextRound := inCalls calls (fail .strayLoopControl none)
  leaveCall := goOn

/-- The exits of a program: there is neither a loop nor a call to leave. -/
def exitsOfProgram : Exits σ Unit where
  next := pure ()
  leaveLoop := fail .strayBreak none
  nextRound := fail .strayContinue none
  leaveCall _ := fail .strayReturn none

section
variable (steps : Steps σ)

mutual

/-- Runs a statement, and goes on at one of its exits. -/
def exec : Nat → List CallStep → Env → Stmt → Exits σ ω → RunningOn σ ω
  | 0, _, _, _, _ => throw .outOfFuel
  | n + 1, calls, env, .expression e, exits => eval n calls env e fun _ => exits.next
  | n + 1, calls, env, .declaration name initializer, exits =>
    let declare (v : Value) : RunningOn σ ω := do
      inCalls calls (steps.define env name v)
      exits.next
    match initializer with
    | some e => eval n calls env e declare
    | none => declare .nil
  | n + 1, calls, env, .block statements, exits => do
    let inner ← inCalls calls (steps.openBlock env statements)
    inOrder (exec n calls inner) statements exits
  | n + 1, calls, env, .ifElse condition thenBranch elseBranch, exits =>
    eval n calls env condition fun v => do
      inCalls calls (steps.note (.condition v))
      if v.truthy then exec n calls env thenBranch exits
      else match elseBranch with
        | some s => exec n calls env s exits
        | none => exits.next
  | n + 1, calls, env, .whileLoop condition body increment, exits =>
    rounds n calls env condition body increment exits
  | _ + 1, _, _, .breakLoop _, exits => exits.leaveLoop
  | _ + 1, _, _, .continueLoop _, exits => exits.nextRound
  | n + 1, calls, env, .returnValue _ value, exits =>
    match value with
    | some e => eval n calls env e exits.leaveCall
    | none => exits.leaveCall .nil
  | _ + 1, _, _, .misplaced kind, _ => throw (.fault (.misplacedStatement kind))

/-- Runs the rounds of a loop that are still to come. The body goes on behind the loop when it leaves
it, and otherwise with the increment. -/
def rounds : Nat → List CallStep → Env → Expr → Stmt → Option Expr → Exits σ ω → RunningOn σ ω
  | 0, _, _, _, _, _, _ => throw .outOfFuel
  | n + 1, calls, env, condition, body, increment, exits =>
    eval n calls env condition fun v =>
      if v.truthy then
        let again : RunningOn σ ω :=
          match increment with
          | some e => eval n calls env e fun _ => rounds n calls env condition body increment exits
          | none => rounds n calls env condition body increment exits
        exec n calls env body
          { exits with next := again, leaveLoop := exits.next, nextRound := again }
      else exits.next

/-- Evaluates an expression, and goes on with its value. -/
def eval : Nat → List CallStep → Env → Expr → (Value → RunningOn σ ω) → RunningOn σ ω
  | 0, _, _, _, _ => throw .outOfFuel
  | _ + 1, _, _, .literal id value, goOn => goOn (steps.literal id value)
  | n + 1, calls, env, .grouping _ inner, goOn => eval n calls env inner goOn
  | n + 1, calls, env, .unary _ operator right, goOn =>
    eval n calls env right fun v => do
      goOn (← inCalls calls (ofResult operator.line (v.unary operator)))
  | n + 1, calls, env, .binary _ left operator right, goOn =>
    eval n calls env left fun v =>
      eval n calls env right fun w => do
        goOn (← inCalls calls (ofResult operator.line (v.binary operator w)))
  | n + 1, calls, env, .logical _ left operator right, goOn =>
    eval n calls env left fun v =>
      if v.settles operator then goOn v else eval n calls env right goOn
  | _ + 1, calls, env, .step _ left operator, goOn =>
    match left with
    | .reference id name => do
      let v ← inCalls calls (steps.lookUp env id name)
      let w ← inCalls calls (ofResult operator.line (v.step operator))
      inCalls calls (steps.assign env id name w)
      goOn w
    | _ => inCalls calls (fail (.steppedVariable operator.lexeme) (some operator.line))
  | _ + 1, calls, env, .reference id name, goOn => do
    goOn (← inCalls calls (steps.lookUp env id name))
  | n + 1, calls, env, .assignment id name value, goOn =>
    eval n calls env value fun v => do
      inCalls calls (steps.assign env id name v)
      goOn v
  | n + 1, calls, env, .call _ callee arguments paren, goOn =>
    eval n calls env callee fun f =>
      evalAll (eval n calls env) arguments fun vs => call n calls f vs paren.line goOn
  | _ + 1, calls, env, .lambda _ keyword params body name, goOn => do
    goOn (← inCalls calls (steps.close env keyword params body name))
  | _ + 1, _, _, .misplaced kind, _ => throw (.fault (.misplacedExpression kind))

/-- Calls a value, from a line, and goes on with the value of the call. -/
def call : Nat → List CallStep → Value → List Value → Int → (Value → RunningOn σ ω) → RunningOn σ ω
  | 0, _, _, _, _, _ => throw .outOfFuel
  | n + 1, calls, .closure c, arguments, line, goOn => do
    inCalls calls (checkArity (some c.arity) arguments.length line)
    inCalls calls (steps.note (.called (.closure c) arguments.length))
    enter n (calls ++ [.line line]) c arguments goOn
  | _ + 1, calls, .native f, arguments, line, goOn => do
    inCalls calls (checkArity f.arity? arguments.length line)
    inCalls calls (steps.note (.called (.native f) arguments.length))
    goOn (← inCalls (calls ++ [.line line]) (steps.callNative f arguments))
  | _ + 1, calls, _, _, line, _ => inCalls calls (fail .notCallable (some line))

/-- Runs the body of a function in a frame of its own, and goes on with the value of the call. -/
def enter : Nat → List CallStep → Closure → List Value → (Value → RunningOn σ ω) → RunningOn σ ω
  | 0, _, _, _, _ => throw .outOfFuel
  | n + 1, calls, c, arguments, goOn => do
    let env ← inCalls calls (steps.bindArguments c arguments)
    let inside := calls ++ [.calling c.name c.keyword.line]
    inOrder (exec n inside env) c.body (exitsOfCall inside goOn)

end

/-- Runs the statements of a program one behind the other among the global variables. -/
def interpret (fuel : Nat) (p : Program) : RunningOn σ Unit :=
  inOrder (exec steps fuel [] .global) p exitsOfProgram

end

end Jumping

/-- Runs a program text by jumps, and tells the number of its statements. -/
def Acting.runByJumps (fuel : Nat) (source : String) : Acting Nat := do
  let p ← parse source
  install p.resolution
  perform fun steps => Jumping.interpret steps fuel p
  return p.length

end Lox
