import Std.Data.TreeMap
import Lox.Message
import Lox.Tree.Basic

/-!
# Scopes

A block is a scope, and so is a function with its parameters and its body. A scope holds the names
declared in it. A use of a name in a scope is as far from its declaration as there are scopes
between them.
-/

namespace Lox

/-! ## Scopes and the names in them -/

/-- Whether a declared variable has its value. -/
inductive Readiness
  /-- Its initializer is being walked. -/
  | pending
  | ready
  deriving DecidableEq

/-- The names declared in a scope. -/
abbrev Scope := Std.TreeMap String Readiness

/-- The innermost scope with a name: its distance, and whether the name is ready there. -/
def findName (name : String) : List Scope → Option (Nat × Readiness)
  | [] => none
  | scope :: outer =>
    match scope[name]? with
    | some readiness => some (0, readiness)
    | none => (findName name outer).map fun (distance, readiness) => (distance + 1, readiness)

/-! ## Uses of names -/

/-- A use of a name. -/
inductive UseForm
  | reference
  | assignment
  deriving DecidableEq

/-- A use of a name that is declared in a scope around it. -/
structure Use where
  id : Nat
  form : UseForm
  name : Token
  /-- The number of scopes between the use and the scope with the declaration. -/
  distance : Nat

/-! ## Errors -/

/-- Why a program is refused. -/
inductive ResolutionError.Cause
  | ownInitializer (name : String)
  | noLoop (keyword : String)
  | noFunction

/-- Why and where a program is refused. -/
structure ResolutionError where
  cause : ResolutionError.Cause
  line : Int

/-- The wording of a refusal. -/
def ResolutionError.text (e : ResolutionError) : String :=
  match e.cause with
  | .ownInitializer name => "cannot read local variable '" ++ name ++ "' in its own initializer"
  | .noLoop keyword => "'" ++ keyword ++ "' outside of a loop"
  | .noFunction => "'return' outside of a function"

/-- The message of a refusal. -/
def ResolutionError.message (e : ResolutionError) : String :=
  Lox.message "ResolutionError" (some e.line) e.text

/-- What ends a walk before its time. -/
inductive Refusal
  | error (e : ResolutionError)
  | misplaced (kind : NodeKind)

end Lox
