import Lox.Run.Machine

/-!
# Running programs

A statement ends normally, by leaving a loop, by going on to its next round, or by returning a
value. Loops and calls take what is meant for them, and every other statement hands it on. A run
is allowed a number of nested evaluations and of rounds of loops; the outcome of one that needs
more is `outOfFuel`. What a run does to its state are the steps it is given.
-/

namespace Lox

open Running

section
variable {σ : Type} (steps : Steps σ)

mutual

/-- Runs a statement. -/
def exec : Nat → Env → Stmt → RunningOn σ Completion
  | 0, _, _ => throw .outOfFuel
  | n + 1, env, .expression e => do
    let _ ← eval n env e
    return .finished
  | n + 1, env, .declaration name initializer => do
    let v ← match initializer with
      | some e => eval n env e
      | none => pure .nil
    steps.define env name v
    return .finished
  | n + 1, env, .block statements => do
    let inner ← steps.openBlock env statements
    inOrder (exec n inner) statements
  | n + 1, env, .ifElse condition thenBranch elseBranch => do
    let v ← eval n env condition
    steps.note (.condition v)
    if v.truthy then exec n env thenBranch
    else match elseBranch with
      | some s => exec n env s
      | none => return .finished
  | n + 1, env, .whileLoop condition body increment => rounds n env condition body increment
  | _ + 1, _, .breakLoop _ => return .broken
  | _ + 1, _, .continueLoop _ => return .continued
  | n + 1, env, .returnValue _ value => do
    let v ← match value with
      | some e => eval n env e
      | none => pure .nil
    return .returned v
  | _ + 1, _, .misplaced kind => throw (.fault (.misplacedStatement kind))

/-- Runs the rounds of a loop that are still to come. -/
def rounds : Nat → Env → Expr → Stmt → Option Expr → RunningOn σ Completion
  | 0, _, _, _, _ => throw .outOfFuel
  | n + 1, env, condition, body, increment => do
    let v ← eval n env condition
    if v.truthy then
      match ← exec n env body with
      | .broken => return .finished
      | .returned v => return .returned v
      | _ =>
        match increment with
        | some e =>
          let _ ← eval n env e
          rounds n env condition body increment
        | none => rounds n env condition body increment
    else return .finished

/-- Evaluates an expression. -/
def eval : Nat → Env → Expr → RunningOn σ Value
  | 0, _, _ => throw .outOfFuel
  | _ + 1, _, .literal id value => return steps.literal id value
  | n + 1, env, .grouping _ inner => eval n env inner
  | n + 1, env, .unary _ operator right => do
    let v ← eval n env right
    ofResult operator.line (v.unary operator)
  | n + 1, env, .binary _ left operator right => do
    let v ← eval n env left
    let w ← eval n env right
    ofResult operator.line (v.binary operator w)
  | n + 1, env, .logical _ left operator right => do
    let v ← eval n env left
    if v.settles operator then return v else eval n env right
  | _ + 1, env, .step _ left operator =>
    match left with
    | .reference id name => do
      let v ← steps.lookUp env id name
      let w ← ofResult operator.line (v.step operator)
      steps.assign env id name w
      return w
    | _ => fail (.steppedVariable operator.lexeme) (some operator.line)
  | _ + 1, env, .reference id name => steps.lookUp env id name
  | n + 1, env, .assignment id name value => do
    let v ← eval n env value
    steps.assign env id name v
    return v
  | n + 1, env, .call _ callee arguments paren => do
    let f ← eval n env callee
    let vs ← arguments.mapM (eval n env)
    call n f vs paren.line
  | _ + 1, env, .lambda _ keyword params body name => steps.close env keyword params body name
  | _ + 1, _, .misplaced kind => throw (.fault (.misplacedExpression kind))

/-- Calls a value, from a line. -/
def call : Nat → Value → List Value → Int → RunningOn σ Value
  | 0, _, _, _ => throw .outOfFuel
  | n + 1, .closure c, arguments, line => do
    checkArity (some c.arity) arguments.length line
    steps.note (.called (.closure c) arguments.length)
    inCall (.line line) (enter n c arguments)
  | _ + 1, .native f, arguments, line => do
    checkArity f.arity? arguments.length line
    steps.note (.called (.native f) arguments.length)
    inCall (.line line) (steps.callNative f arguments)
  | _ + 1, _, _, line => fail .notCallable (some line)

/-- Runs the body of a function in a frame of its own. -/
def enter : Nat → Closure → List Value → RunningOn σ Value
  | 0, _, _ => throw .outOfFuel
  | n + 1, c, arguments => do
    let env ← steps.bindArguments c arguments
    inCall (.calling c.name c.keyword.line) do
      valueOf (← inOrder (exec n env) c.body)

end

/-! ## Whole programs -/

/-- Runs the statements of a program one after the other among the global variables. -/
def interpret (fuel : Nat) (p : Program) : RunningOn σ Unit :=
  p.forM fun s => do expectFinished (← exec steps fuel .global s)

end

end Lox
