import Lox.Run.Console
import Lox.Run.Operator
import Lox.Run.Trace
import Lox.Scope.Distance

/-!
# Machines

What running programs change, and the steps they take: finding and changing variables, making
frames and functions, calling native functions.
-/

namespace Lox

/-- How a statement ended. -/
inductive Completion
  | finished
  | broken
  | continued
  | returned (value : Value)

/-- A way to end, with a returned value as its kind can be told from its text. -/
def Completion.text : Completion → String
  | finished => "None"
  | broken => "BreakSignal()"
  | continued => "ContinueSignal()"
  | returned value => "ReturnSignal(" ++ value.quoted ++ ")"

/-- All that a running program changes. -/
structure Machine where
  store : Store
  /-- The number of closures made so far. -/
  closures : Nat
  console : Console
  trace : Trace

/-- A machine before its first program. -/
def Machine.initial (console : Console) (debugLevel : Nat) : Machine :=
  ⟨.initial, 0, console, ⟨debugLevel, #[]⟩⟩

/-- A run on a state keeps what it has done when it ends early. -/
abbrev RunningOn (σ : Type) := EStateM Stop σ

/-- A run on a machine. -/
abbrev Running := RunningOn Machine

/-- How the uses of names find their variables. -/
inductive Access
  /-- In the frame at the distance noted for the node, or else in the global frame. -/
  | distances (table : Distances)
  /-- In the nearest frame that has the variable. -/
  | nearest

namespace Running

/-! ## Parts of runs on any state -/

section
variable {σ α : Type}

/-- Ends the run with an error. -/
def fail (cause : RuntimeError.Cause) (line : Option Int) : RunningOn σ α :=
  throw (.error ⟨cause, line, []⟩)

/-- Ends the run if an operator has no result. -/
def ofResult (line : Int) : Except RuntimeError.Cause Value → RunningOn σ Value
  | .ok v => pure v
  | .error cause => fail cause (some line)

/-- Adds a call around an error. -/
def inCall (step : CallStep) (run : RunningOn σ α) : RunningOn σ α :=
  run.adaptExcept (·.inCall step)

/-- Runs statements up to the first one that does not end normally. -/
def inOrder (exec : Stmt → RunningOn σ Completion) : List Stmt → RunningOn σ Completion
  | [] => return .finished
  | s :: rest => do
    match ← exec s with
    | .finished => inOrder exec rest
    | ended => return ended

/-- The value of a call whose body has ended. -/
def valueOf : Completion → RunningOn σ Value
  | .returned v => return v
  | .finished => return .nil
  | _ => fail .strayLoopControl none

/-- Refuses a wrong number of arguments. -/
def checkArity (arity? : Option Nat) (count : Nat) (line : Int) : RunningOn σ Unit :=
  match arity? with
  | some arity => if count = arity then pure () else fail (.argumentCount arity count) (some line)
  | none => pure ()

/-- Refuses what ends a statement that is in no loop and in no function. -/
def expectFinished : Completion → RunningOn σ Unit
  | .finished => pure ()
  | .returned _ => fail .strayReturn none
  | .broken => fail .strayBreak none
  | .continued => fail .strayContinue none

end

/-! ## Steps of a machine -/

/-- Notes an event. -/
def note (e : Event) : Running Unit := modify fun m => { m with trace := m.trace.note e }

/-- Ends the run if a variable is missing. -/
def ofFound {α : Type} (name : Token) : Except Missing α → Running α
  | .ok x => pure x
  | .error missing => throw (missing.stop (some name.line))

/-- The value of the variable that a use of a name means. -/
def lookUp (access : Access) (env : Env) (id : Nat) (name : Token) : Running Value := do
  let store := (← get).store
  ofFound name <| match access with
    | .distances table =>
      match table[id]? with
      | some distance => store.getAt env distance name.lexeme
      | none => store.get .global name.lexeme
    | .nearest => store.get env name.lexeme

/-- The frame with the variable that a use of a name means. -/
def ownerOf (access : Access) (env : Env) (id : Nat) (name : Token) : Running Ref := do
  let store := (← get).store
  ofFound name <| match access with
    | .distances table =>
      match table[id]? with
      | some distance => store.ownerAt env distance name.lexeme
      | none => store.owner .global name.lexeme
    | .nearest => store.owner env name.lexeme

/-- Changes the variables. -/
def modifyStore (f : Store → Store) : Running Unit := modify fun m => { m with store := f m.store }

/-- Gives the variable that a use of a name means a value. -/
def assign (access : Access) (env : Env) (id : Nat) (name : Token) (v : Value) :
    Running Unit := do
  let r ← ownerOf access env id name
  modifyStore (·.bind r name.lexeme v)

/-- Declares a variable. -/
def define (env : Env) (name : Token) (v : Value) : Running Unit := do
  modifyStore (·.define env name.lexeme v)
  note (.declared name.lexeme v)

/-- A new frame inside the given ones. -/
def newFrame (outer : List Ref) : Running Env := fun m =>
  .ok (m.store.nextEnv outer) { m with store := m.store.grow }

/-- A function value of a function literal. -/
def close (env : Env) (keyword : Token) (params : List Token) (body : List Stmt)
    (name : Option Token) : Running Value := do
  let identity := (← get).closures
  modify fun m => { m with closures := m.closures + 1 }
  return .closure ⟨identity, keyword, params, body, name, env⟩

/-- A new frame for a call, with the arguments in it; those without a parameter are dropped. -/
def bindArguments (c : Closure) (arguments : List Value) : Running Env := do
  let env ← newFrame c.env.chain
  modifyStore (·.defineAll env ((c.params.map (·.lexeme)).zip arguments))
  return env

/-- Changes the console. -/
def modifyConsole (f : Console → Console) : Running Unit :=
  modify fun m => { m with console := f m.console }

/-- Writes a line. -/
def writeLine (text : String) : Running Unit := do
  if (← get).console.writable then modifyConsole (·.write (text ++ "\n"))
  else fail .writing none

/-- Takes the first of the lines that are still to be read; at the end of the input there is none. -/
def takeLine : List (List Char) → Running (Option (List Char))
  | [] => return none
  | line :: rest => do
    modifyConsole ({ · with unread := rest })
    return some (Text.trimLineEnd line)

/-- Reads a line. -/
def readLine : Running (Option (List Char)) := do
  let console := (← get).console
  if console.readFails then fail .reading none else takeLine console.unread

/-- Reads the clock. -/
def readClock : Running Float := do
  let console := (← get).console
  modifyConsole ({ · with readings := console.readings + 1 })
  return console.clock console.readings

/-- A call of a native function. -/
def callNative (f : Native) (arguments : List Value) : Running Value := do
  match f with
  | .clock => return .num (← readClock)
  | .print =>
    writeLine (" ".intercalate (arguments.map (·.text)))
    return .nil
  | .input =>
    match ← readLine with
    | some line => return .str (String.ofList line)
    | none => return .nil

end Running

/-- The steps of a run that read or change its state, and the values of literals. A block is told by its
statements. -/
structure Steps (σ : Type) where
  lookUp (env : Env) (id : Nat) (name : Token) : RunningOn σ Value
  assign (env : Env) (id : Nat) (name : Token) (v : Value) : RunningOn σ Unit
  define (env : Env) (name : Token) (v : Value) : RunningOn σ Unit
  openBlock (env : Env) (statements : List Stmt) : RunningOn σ Env
  close (env : Env) (keyword : Token) (params : List Token) (body : List Stmt)
    (name : Option Token) : RunningOn σ Value
  bindArguments (c : Closure) (arguments : List Value) : RunningOn σ Env
  callNative (f : Native) (arguments : List Value) : RunningOn σ Value
  note (e : Event) : RunningOn σ Unit
  /-- The literals that are written in programs stand for what is written. -/
  literal (id : Nat) (value : Literal) : Value := .ofLiteral value

/-- The same steps on trees whose literals hold some values. -/
def Steps.holding {σ : Type} (steps : Steps σ) (held : Value.Held) : Steps σ :=
  { steps with literal := held.value }

/-- The steps of a machine. -/
def Access.steps (access : Access) : Steps Machine where
  lookUp := Running.lookUp access
  assign := Running.assign access
  define := Running.define
  openBlock env _ := Running.newFrame env.chain
  close := Running.close
  bindArguments := Running.bindArguments
  callNative := Running.callNative
  note := Running.note

/-- The trees of program texts hold nothing that is not written. -/
theorem Access.steps_holding_none (access : Access) :
    access.steps.holding (fun _ => none) = access.steps := rfl

end Lox
