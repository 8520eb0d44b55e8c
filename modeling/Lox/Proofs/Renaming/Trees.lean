import Lox.Proofs.Scopes.Tables

/-!
# A variable with another name

A scope of a program is told by the way that leads to it, and so is every other place seen from it.
A declaration belongs to the scope if it stands in it with no scope between. A use belongs to it if
its distance is the number of scopes between.
-/

namespace Lox

/-! ## Places seen from a scope -/

/-- Where a place is, seen from a scope. -/
inductive Focus
  /-- Outside of the scope, which children with the given positions lead to. -/
  | toward (path : List Nat)
  /-- Inside of the scope, with so many scopes between. -/
  | within (depth : Nat)
  /-- Outside of the scope. -/
  | apart

namespace Focus

/-- The place of the child with a position. -/
def child (position : Nat) : Focus → Focus
  | toward [] => apart
  | toward (next :: path) => if next = position then toward path else apart
  | within depth => within depth
  | apart => apart

/-- The place inside of a block or function that is entered. -/
def enter : Focus → Focus
  | toward [] => within 0
  | toward path => toward path
  | within depth => within (depth + 1)
  | apart => apart

/-- The number of scopes between a place and the scope that it is inside of. -/
def depth? : Focus → Option Nat
  | within depth => some depth
  | _ => none

theorem depth?_child (f : Focus) (position : Nat) : (f.child position).depth? = f.depth? := by
  cases f with
  | toward path =>
    cases path with
    | nil => rfl
    | cons next path =>
      simp only [child]
      split <;> rfl
  | within depth => rfl
  | apart => rfl

end Focus

/-! ## Renamed trees -/

/-- A name for another, with the distances of uses by which those that mean a variable are told. -/
structure Renaming where
  table : Distances
  old : String
  new : String

namespace Renaming

variable (r : Renaming)

/-- A declared name. -/
def declared (f : Focus) (name : Token) : Token :=
  if f.depth? = some 0 ∧ name.lexeme = r.old then { name with lexeme := r.new } else name

/-- A used name. -/
def used (f : Focus) (id : Nat) (name : Token) : Token :=
  match f.depth? with
  | some depth =>
    if r.table[id]? = some depth ∧ name.lexeme = r.old then { name with lexeme := r.new } else name
  | none => name

end Renaming

mutual

/-- An expression with the variable renamed. -/
def Expr.rename (r : Renaming) (f : Focus) : Expr → Expr
  | .literal id value => .literal id value
  | .grouping id inner => .grouping id (inner.rename r (f.child 0))
  | .unary id operator right => .unary id operator (right.rename r (f.child 0))
  | .binary id left operator right =>
    .binary id (left.rename r (f.child 0)) operator (right.rename r (f.child 1))
  | .logical id left operator right =>
    .logical id (left.rename r (f.child 0)) operator (right.rename r (f.child 1))
  | .step id left operator => .step id (left.rename r (f.child 0)) operator
  | .reference id name => .reference id (r.used f id name)
  | .assignment id name value => .assignment id (r.used f id name) (value.rename r (f.child 0))
  | .call id callee arguments paren =>
    .call id (callee.rename r (f.child 0)) (Expr.renameAll r f 1 arguments) paren
  | .lambda id keyword params body name =>
    .lambda id keyword (params.map (r.declared f.enter)) (Stmt.renameAll r f.enter 0 body) name
  | .misplaced kind => .misplaced kind

/-- Expressions with the variable renamed; the first has the given position. -/
def Expr.renameAll (r : Renaming) (f : Focus) (position : Nat) : List Expr → List Expr
  | [] => []
  | e :: rest => e.rename r (f.child position) :: Expr.renameAll r f (position + 1) rest

/-- An optional expression with the variable renamed. -/
def Expr.renameOption (r : Renaming) (f : Focus) : Option Expr → Option Expr
  | none => none
  | some e => some (e.rename r f)

/-- A statement with the variable renamed. -/
def Stmt.rename (r : Renaming) (f : Focus) : Stmt → Stmt
  | .expression e => .expression (e.rename r (f.child 0))
  | .declaration name initializer =>
    .declaration (r.declared f name) (Expr.renameOption r (f.child 0) initializer)
  | .block statements => .block (Stmt.renameAll r f.enter 0 statements)
  | .ifElse condition thenBranch elseBranch =>
    .ifElse (condition.rename r (f.child 0)) (thenBranch.rename r (f.child 1))
      (Stmt.renameOption r (f.child 2) elseBranch)
  | .whileLoop condition body increment =>
    .whileLoop (condition.rename r (f.child 0)) (body.rename r (f.child 1))
      (Expr.renameOption r (f.child 2) increment)
  | .breakLoop keyword => .breakLoop keyword
  | .continueLoop keyword => .continueLoop keyword
  | .returnValue keyword value => .returnValue keyword (Expr.renameOption r (f.child 0) value)
  | .misplaced kind => .misplaced kind

/-- Statements with the variable renamed; the first has the given position. -/
def Stmt.renameAll (r : Renaming) (f : Focus) (position : Nat) : List Stmt → List Stmt
  | [] => []
  | s :: rest => s.rename r (f.child position) :: Stmt.renameAll r f (position + 1) rest

/-- An optional statement with the variable renamed. -/
def Stmt.renameOption (r : Renaming) (f : Focus) : Option Stmt → Option Stmt
  | none => none
  | some s => some (s.rename r f)

end

/-- A program with a variable renamed in the scope that children with the given positions lead to:
in all declarations and parameters of the scope, and in all uses that mean its variable. -/
def Program.rename (p : Program) (path : List Nat) (old new : String) : Program :=
  Stmt.renameAll ⟨p.distances, old, new⟩ (.toward path) 0 p

/-! ## Names in trees -/

mutual

/-- The names that are declared or used in an expression. -/
def Expr.names : Expr → List String
  | .literal .. | .misplaced _ => []
  | .grouping _ inner => inner.names
  | .unary _ _ right => right.names
  | .binary _ left _ right => left.names ++ right.names
  | .logical _ left _ right => left.names ++ right.names
  | .step _ left _ => left.names
  | .reference _ name => [name.lexeme]
  | .assignment _ name value => name.lexeme :: value.names
  | .call _ callee arguments _ => callee.names ++ Expr.allNames arguments
  | .lambda _ _ params body _ => params.map (·.lexeme) ++ Stmt.allNames body

/-- The names that are declared or used in expressions. -/
def Expr.allNames : List Expr → List String
  | [] => []
  | e :: rest => e.names ++ Expr.allNames rest

/-- The names that are declared or used in an optional expression. -/
def Expr.optionNames : Option Expr → List String
  | none => []
  | some e => e.names

/-- The names that are declared or used in a statement. -/
def Stmt.names : Stmt → List String
  | .expression e => e.names
  | .declaration name initializer => name.lexeme :: Expr.optionNames initializer
  | .block statements => Stmt.allNames statements
  | .ifElse condition thenBranch elseBranch =>
    condition.names ++ (thenBranch.names ++ Stmt.optionNames elseBranch)
  | .whileLoop condition body increment =>
    condition.names ++ (body.names ++ Expr.optionNames increment)
  | .breakLoop _ | .continueLoop _ | .misplaced _ => []
  | .returnValue _ value => Expr.optionNames value

/-- The names that are declared or used in statements. -/
def Stmt.allNames : List Stmt → List String
  | [] => []
  | s :: rest => s.names ++ Stmt.allNames rest

/-- The names that are declared or used in an optional statement. -/
def Stmt.optionNames : Option Stmt → List String
  | none => []
  | some s => s.names

end

/-- The names that are declared or used in a program. -/
def Program.names (p : Program) : List String := Stmt.allNames p

end Lox
