import Lox.Message
import Lox.Value.Store

/-!
# Errors of running programs

Why a run ended, on which line, and through which calls the place was reached.
-/

namespace Lox

/-- Why a run ended. -/
inductive RuntimeError.Cause
  | numberOperand
  | numberOperands
  | summands
  | steppedNumber (operator : String)
  | steppedVariable (operator : String)
  | unknownUnary (operator : String)
  | unknownBinary (operator : String)
  | notCallable
  | argumentCount (expected got : Nat)
  | undefined (name : String)
  | uninitialized (name : String)
  | strayBreak
  | strayContinue
  | strayReturn
  | strayLoopControl
  | writing
  | reading

/-- Errors are of three kinds. -/
inductive RuntimeError.Kind
  | general | type | name
  deriving DecidableEq

/-- The kind of an error. -/
def RuntimeError.Cause.kind : RuntimeError.Cause → RuntimeError.Kind
  | numberOperand | numberOperands | summands | steppedNumber _ | notCallable
  | argumentCount .. => .type
  | undefined _ | uninitialized _ => .name
  | _ => .general

/-- The name of a kind of errors. -/
def RuntimeError.Kind.text : RuntimeError.Kind → String
  | general => "RuntimeError"
  | type => "TypeError"
  | name => "NameError"

/-- The wording of a cause. -/
def RuntimeError.Cause.text : RuntimeError.Cause → String
  | numberOperand => "operand must be a number"
  | numberOperands => "operands must be numbers"
  | summands => "operands must be two numbers or two strings"
  | steppedNumber operator => "operand of '" ++ operator ++ "' must be a number"
  | steppedVariable operator => "operand of '" ++ operator ++ "' must be a variable"
  | unknownUnary operator => "unknown unary operator " ++ operator
  | unknownBinary operator => "unknown binary operator " ++ operator
  | notCallable => "can only call functions"
  | argumentCount expected got =>
    "expected " ++ toString expected ++ " arguments but got " ++ toString got
  | undefined name => "undefined variable '" ++ name ++ "'"
  | uninitialized name => "uninitialized variable '" ++ name ++ "'"
  | strayBreak => "'break' outside of a loop"
  | strayContinue => "'continue' outside of a loop"
  | strayReturn => "'return' outside of a function"
  | strayLoopControl => "loop control outside of a loop"
  | writing => "error writing output"
  | reading => "error reading input"

/-- A step into a call. -/
inductive CallStep
  /-- The call stands on this line. -/
  | line (n : Int)
  /-- The called function, and the line of its `fun`. -/
  | calling (name : String) (definedOn : Int)
  deriving DecidableEq

/-- The wording of a step into a call. -/
def CallStep.text : CallStep → String
  | line n => "line " ++ toString n
  | calling name definedOn => "calling " ++ name ++ " defined on line " ++ toString definedOn

/-- Why a run ended, where, and in which calls. -/
structure RuntimeError where
  cause : RuntimeError.Cause
  line : Option Int
  /-- The calls around the place, outermost first. -/
  context : List CallStep

/-- The message of an error, with the calls in front. -/
def RuntimeError.message (e : RuntimeError) : String :=
  ": ".intercalate (e.context.map (·.text) ++ [Lox.message e.cause.kind.text e.line e.cause.text])

/-- What only a tree that no text is read as can lead to. -/
inductive Fault
  | misplacedStatement (kind : NodeKind)
  | misplacedExpression (kind : NodeKind)
  | noFrame (excess : Nat)

/-- What ends a run before its time. -/
inductive Stop
  | error (e : RuntimeError)
  | fault (f : Fault)
  /-- The run is longer than it was allowed to be. -/
  | outOfFuel

/-- A missing variable as what ends a run. -/
def Missing.stop (line : Option Int) : Missing → Stop
  | undefined name => .error ⟨.undefined name, line, []⟩
  | uninitialized name => .error ⟨.uninitialized name, line, []⟩
  | noFrame excess => .fault (.noFrame excess)

/-- Adds a call around an error. -/
def Stop.inCall (step : CallStep) : Stop → Stop
  | error e => .error { e with context := step :: e.context }
  | s => s

end Lox
