import Lox.Session

/-!
# Running programs with their open calls recorded

A second way to run programs, in which the calls that have not ended are part of the state. A call
is put there once it is accepted and is taken from there when it ends. An error leaves in place what
is there, and is itself told no call.
-/

namespace Lox

/-- A call of a function of a program that has not ended, with the line of its closing
parenthesis. -/
structure Activation where
  function : Closure
  line : Int

/-- A state, and the calls that have not ended in it. -/
structure Recording (σ : Type) where
  state : σ
  /-- The calls of functions of a program, outermost first. -/
  activations : List Activation
  /-- The line of the call of a native function, inside of the others. -/
  native : Option Int

namespace Recording

open Running

variable {ε σ α : Type}

/-- A state outside of all calls. -/
def outside (s : σ) : Recording σ := ⟨s, [], none⟩

/-- Does something that neither calls nor returns. -/
def lift (run : EStateM ε σ α) : EStateM ε (Recording σ) α := fun r =>
  match run r.state with
  | .ok a s => .ok a { r with state := s }
  | .error e s => .error e { r with state := s }

/-- Runs something in a call of a function of a program. -/
def inActivation (a : Activation) (run : RunningOn (Recording σ) α) :
    RunningOn (Recording σ) α := do
  modify fun r => { r with activations := r.activations ++ [a] }
  let result ← run
  modify fun r => { r with activations := r.activations.dropLast }
  return result

/-- Runs something in a call of a native function. -/
def inNative (line : Int) (run : RunningOn (Recording σ) α) : RunningOn (Recording σ) α := do
  modify fun r => { r with native := some line }
  let result ← run
  modify fun r => { r with native := none }
  return result

section
variable (steps : Steps σ)

mutual

/-- Runs a statement. -/
def exec : Nat → Env → Stmt → RunningOn (Recording σ) Completion
  | 0, _, _ => throw .outOfFuel
  | n + 1, env, .expression e => do
    let _ ← eval n env e
    return .finished
  | n + 1, env, .declaration name initializer => do
    let v ← match initializer with
      | some e => eval n env e
      | none => pure .nil
    lift (steps.define env name v)
    return .finished
  | n + 1, env, .block statements => do
    let inner ← lift (steps.openBlock env statements)
    inOrder (exec n inner) statements
  | n + 1, env, .ifElse condition thenBranch elseBranch => do
    let v ← eval n env condition
    lift (steps.note (.condition v))
    if v.truthy then exec n env thenBranch
    else match elseBranch with
      | some s => exec n env s
      | none => return .finished
  | n + 1, env, .whileLoop condition body increment => rounds n env condition body increment
  | _ + 1, _, .breakLoop _ => return .broken
  | _ + 1, _, .continueLoop _ => return .continued
  | n + 1, env, .returnValue _ value => do
    let v ← match value with
      | some e => eval n env e
      | none => pure .nil
    return .returned v
  | _ + 1, _, .misplaced kind => throw (.fault (.misplacedStatement kind))

/-- Runs the rounds of a loop that are still to come. -/
def rounds : Nat → Env → Expr → Stmt → Option Expr → RunningOn (Recording σ) Completion
  | 0, _, _, _, _ => throw .outOfFuel
  | n + 1, env, condition, body, increment => do
    let v ← eval n env condition
    if v.truthy then
      match ← exec n env body with
      | .broken => return .finished
      | .returned v => return .returned v
      | _ =>
        match increment with
        | some e =>
          let _ ← eval n env e
          rounds n env condition body increment
        | none => rounds n env condition body increment
    else return .finished

/-- Evaluates an expression. -/
def eval : Nat → Env → Expr → RunningOn (Recording σ) Value
  | 0, _, _ => throw .outOfFuel
  | _ + 1, _, .literal id value => return steps.literal id value
  | n + 1, env, .grouping _ inner => eval n env inner
  | n + 1, env, .unary _ operator right => do
    let v ← eval n env right
    ofResult operator.line (v.unary operator)
  | n + 1, env, .binary _ left operator right => do
    let v ← eval n env left
    let w ← eval n env right
    ofResult operator.line (v.binary operator w)
  | n + 1, env, .logical _ left operator right => do
    let v ← eval n env left
    if v.settles operator then return v else eval n env right
  | _ + 1, env, .step _ left operator =>
    match left with
    | .reference id name => do
      let v ← lift (steps.lookUp env id name)
      let w ← ofResult operator.line (v.step operator)
      lift (steps.assign env id name w)
      return w
    | _ => fail (.steppedVariable operator.lexeme) (some operator.line)
  | _ + 1, env, .reference id name => lift (steps.lookUp env id name)
  | n + 1, env, .assignment id name value => do
    let v ← eval n env value
    lift (steps.assign env id name v)
    return v
  | n + 1, env, .call _ callee arguments paren => do
    let f ← eval n env callee
    let vs ← arguments.mapM (eval n env)
    call n f vs paren.line
  | _ + 1, env, .lambda _ keyword params body name =>
    lift (steps.close env keyword params body name)
  | _ + 1, _, .misplaced kind => throw (.fault (.misplacedExpression kind))

/-- Calls a value, from a line. The call is open from when it is accepted. -/
def call : Nat → Value → List Value → Int → RunningOn (Recording σ) Value
  | 0, _, _, _ => throw .outOfFuel
  | n + 1, .closure c, arguments, line => do
    checkArity (some c.arity) arguments.length line
    lift (steps.note (.called (.closure c) arguments.length))
    inActivation ⟨c, line⟩ (enter n c arguments)
  | _ + 1, .native f, arguments, line => do
    checkArity f.arity? arguments.length line
    lift (steps.note (.called (.native f) arguments.length))
    inNative line (lift (steps.callNative f arguments))
  | _ + 1, _, _, line => fail .notCallable (some line)

/-- Runs the body of a function in a frame of its own. -/
def enter : Nat → Closure → List Value → RunningOn (Recording σ) Value
  | 0, _, _ => throw .outOfFuel
  | n + 1, c, arguments => do
    let env ← lift (steps.bindArguments c arguments)
    valueOf (← inOrder (exec n env) c.body)

end

/-- Runs the statements of a program one after the other among the global variables. -/
def interpret (fuel : Nat) (p : Program) : RunningOn (Recording σ) Unit :=
  p.forM fun s => do expectFinished (← exec steps fuel .global s)

end

/-! ## Texts -/

/-- Runs something with the distances noted so far. -/
def perform (running : Steps Machine → RunningOn (Recording Machine) α) :
    EStateM Failure (Recording Session) α :=
    fun ⟨⟨machine, table, nextId⟩, activations, native⟩ =>
  match running (Access.distances table).steps ⟨machine, activations, native⟩ with
  | .ok x ⟨machine, activations, native⟩ => .ok x ⟨⟨machine, table, nextId⟩, activations, native⟩
  | .error stop ⟨machine, activations, native⟩ =>
    .error (.stopped stop) ⟨⟨machine, table, nextId⟩, activations, native⟩

/-- Runs a program text with its open calls recorded, and tells the number of its statements. -/
def run (fuel : Nat) (source : String) : EStateM Failure (Recording Session) Nat := do
  let p ← lift (Acting.parse source)
  lift (Acting.install p.resolution)
  perform fun steps => interpret steps fuel p
  return p.length

end Recording

end Lox
