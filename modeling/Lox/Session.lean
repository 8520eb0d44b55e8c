import Lox.Run.Eval
import Lox.Token.Scan
import Lox.Tree.OfTokens

/-!
# Sessions

A session takes one program text after the other. Its variables, its node numbers and the distances
noted for its nodes go on from each to the next, also past one that fails.
-/

namespace Lox

/-- Why a program text was not run to its end. -/
inductive Failure
  | lexical (defects : List Defect)
  | grammar (e : SyntaxError)
  | resolution (e : ResolutionError)
  | misplaced (kind : NodeKind)
  | stopped (s : Stop)

/-- The message of a failure that is an error of the program. -/
def Failure.message? : Failure → Option String
  | lexical defects => some (defectsMessage defects)
  | grammar e => some e.message
  | resolution e => some e.message
  | stopped (.error e) => some e.message
  | _ => none

/-- What goes on from one program text to the next. -/
structure Session where
  machine : Machine
  /-- The distances of all uses of names seen so far. -/
  table : Distances
  /-- The number of the next node. -/
  nextId : Nat

/-- A session before its first program text. -/
def Session.start (console : Console) (debugLevel : Nat) : Session :=
  ⟨.initial console debugLevel, ∅, 1⟩

/-- A session keeps what was done before a failure. -/
abbrev Acting := EStateM Failure Session

namespace Acting

/-! ## Stages of a program text -/

/-- Notes an event. -/
def note (e : Event) : Acting Unit :=
  modify fun s => { s with machine := { s.machine with trace := s.machine.trace.note e } }

/-- The tokens of a text. -/
def tokens (source : String) : Acting Stream :=
  match tokenize source.toList with
  | .ok stream => pure stream
  | .error defects => throw (.lexical defects)

/-- Reads a tree, and uses up node numbers even if there is none. -/
def read {α : Type} (reading : Nat → Except SyntaxError α × Nat) : Acting α := do
  let (outcome, nextId) := reading (← get).nextId
  modify fun s => { s with nextId }
  match outcome with
  | .ok x => return x
  | .error e => throw (.grammar e)

/-- Fails as a walk did. -/
def expectAccepted : Except Refusal Unit → Acting Unit
  | .ok _ => return
  | .error (.error e) => throw (.resolution e)
  | .error (.misplaced kind) => throw (.misplaced kind)

/-- Keeps the distances that were noted, even if the walk was refused. -/
def install (r : Resolution) : Acting Unit := do
  modify fun s => { s with table := s.table.insertUses r.uses }
  r.uses.forM fun u => note (.resolved u.id u.distance)
  expectAccepted r.outcome

/-- Runs something with the distances noted so far. -/
def perform {α : Type} (running : Steps Machine → Running α) : Acting α :=
    fun ⟨machine, table, nextId⟩ =>
  match running (Access.distances table).steps machine with
  | .ok x machine => .ok x ⟨machine, table, nextId⟩
  | .error stop machine => .error (.stopped stop) ⟨machine, table, nextId⟩

/-! ## What a session can be asked -/

/-- The program that a text is. -/
def parse (source : String) : Acting Program := do
  let stream ← tokens source
  note (.tokens stream.toList)
  let p ← read stream.program
  p.forM fun s => note (.statement s)
  return p

/-- Runs a program text, and tells the number of its statements. -/
def run (fuel : Nat) (source : String) : Acting Nat := do
  let p ← parse source
  install p.resolution
  perform fun steps => interpret steps fuel p
  return p.length

/-- Runs a program text without noting its tokens and statements. -/
def runQuietly (fuel : Nat) (source : String) : Acting Unit := do
  let p ← read (← tokens source).program
  install p.resolution
  perform fun steps => interpret steps fuel p

/-- Runs a program text whose uses of names are all taken for global. -/
def runUnresolved (fuel : Nat) (source : String) : Acting Unit := do
  let p ← read (← tokens source).program
  perform fun steps => interpret steps fuel p

/-- Runs each statement of a program text, whatever way the ones before it ended, without looking
for its scopes. -/
def completions (fuel : Nat) (source : String) : Acting (List Completion) := do
  let p ← read (← tokens source).program
  perform fun steps => p.mapM (exec steps fuel .global)

/-- Evaluates the text of an expression. -/
def evaluate (fuel : Nat) (source : String) : Acting Value := do
  let e ← read (← tokens source).expression
  install e.resolution
  perform fun steps => eval steps fuel .global e

/-- Runs statements with the distances noted so far. -/
def runTrees (fuel : Nat) (p : Program) : Acting Unit :=
  perform fun steps => interpret steps fuel p

/-- The value of a global variable. -/
def global (name : String) : Acting Value := do
  match (← get).machine.store.get .global name with
  | .ok v => return v
  | .error missing => throw (.stopped (missing.stop none))

/-- Calls a value from a line. -/
def callFrom (fuel : Nat) (f : Value) (arguments : List Value) (line : Int) : Acting Value :=
  perform fun steps => call steps fuel f arguments line

/-- Calls a value from nowhere, with any number of arguments. -/
def callDirectly (fuel : Nat) (f : Value) (arguments : List Value) : Acting Value :=
  perform fun steps =>
    match f with
    | .closure c => enter steps fuel c arguments
    | .native f => steps.callNative f arguments
    | _ => Running.fail .notCallable none

end Acting

/-- Does something in a session. -/
def Session.after {α : Type} (s : Session) (acting : Acting α) : Except Failure α × Session :=
  match acting s with
  | .ok x s => (.ok x, s)
  | .error e s => (.error e, s)

end Lox
