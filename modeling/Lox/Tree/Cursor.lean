import Lox.Tree.SyntaxError

/-!
# Reading tokens

A reader takes tokens off the front of a stream, and numbers for the nodes it completes.
-/

namespace Lox

/-- The tokens that are still to be read, and the number of the next node. -/
structure Cursor where
  ahead : List Token
  stop : Token
  nextId : Nat

/-- A reader keeps its place, and the numbers it used, when it fails. -/
abbrev Reading := EStateM SyntaxError Cursor

namespace Reading

/-- Fails at a token. -/
def fail {α : Type} (cause : SyntaxError.Cause) (found : Token) : Reading α :=
  throw ⟨cause, found, []⟩

/-- The next token; at the end it is the mark of the end. -/
def peek : Reading Token := do
  let c ← get
  return c.ahead.headD c.stop

/-- Reads the next token; nothing is read beyond the end. -/
def advance : Reading Token := do
  let t ← peek
  modify fun c => { c with ahead := c.ahead.tail }
  return t

/-- Whether the next token is of the given kind. -/
def check (kind : Kind) : Reading Bool := return (← peek).kind = kind

/-- Reads the next token if it is of the given kind. -/
def accept (kind : Kind) : Reading Bool := do
  if ← check kind then
    let _ ← advance
    return true
  else return false

/-- Reads the wanted token. -/
def want (wanted : Wanted) : Reading Token := do
  let t ← peek
  if t.kind = wanted.kind then advance else fail (.missing wanted) t

/-- A number for a node that has just been completed. -/
def freshId : Reading Nat := do
  let c ← get
  set { c with nextId := c.nextId + 1 }
  return c.nextId

/-- Reads an item, and others after commas, up to a number of items. -/
def commaSeparated {α : Type} (tooMany : SyntaxError.Cause) (item : Reading α) :
    Nat → Reading (List α)
  | 0 => do fail tooMany (← peek)
  | more + 1 => do
    let x ← item
    if ← accept .comma then
      return x :: (← commaSeparated tooMany item more)
    else return [x]

/-- Reads items between commas up to a closing parenthesis. -/
def listed {α : Type} (tooMany : SyntaxError.Cause) (closing : Wanted) (item : Reading α) :
    Reading (List α × Token) := do
  let items ← if ← check closing.kind then pure [] else commaSeparated tooMany item maxArguments
  return (items, ← want closing)

/-- Reads an item, which is absent before a token of the given kind. -/
def absentAt {α : Type} (kind : Kind) (item : Reading α) : Reading (Option α) := do
  if ← check kind then return none else return some (← item)

/-- Adds a statement to those that stand before an error. -/
def after {α : Type} (s : Stmt) (reading : Reading α) : Reading α :=
  reading.adaptExcept fun e => { e with before := s :: e.before }

end Reading

end Lox
