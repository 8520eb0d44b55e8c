import Lox.Token.Basic

/-!
# Syntax trees

Expressions and statements. Every expression has a number by which its place in a program is told
from all others. A tree put together by hand may hold a node where its kind does not belong; the
predicates at the end say that there is none.
-/

namespace Lox

/-- The kinds of nodes, and what is no node at all. -/
inductive NodeKind
  | literal | grouping | unary | binary | logical | step | reference | assignment | call | lambda
  | expression | declaration | block | ifElse | whileLoop | breakLoop | continueLoop | returnValue
  | foreign
  deriving DecidableEq, Inhabited

mutual

inductive Expr
  /-- In a tree put together by hand, what is written may be replaced by any value, under the number of
  the literal. -/
  | literal (id : Nat) (value : Literal)
  | grouping (id : Nat) (inner : Expr)
  | unary (id : Nat) (operator : Token) (right : Expr)
  | binary (id : Nat) (left : Expr) (operator : Token) (right : Expr)
  /-- The right operand is evaluated only if the left one leaves the result open. -/
  | logical (id : Nat) (left : Expr) (operator : Token) (right : Expr)
  /-- A variable that is counted up or down. -/
  | step (id : Nat) (left : Expr) (operator : Token)
  | reference (id : Nat) (name : Token)
  | assignment (id : Nat) (name : Token) (value : Expr)
  /-- The closing parenthesis tells the line of the call. -/
  | call (id : Nat) (callee : Expr) (arguments : List Expr) (paren : Token)
  /-- A function; a declared one has a name. -/
  | lambda (id : Nat) (keyword : Token) (params : List Token) (body : List Stmt)
      (name : Option Token)
  /-- A node that is no expression. -/
  | misplaced (kind : NodeKind)

inductive Stmt
  | expression (e : Expr)
  | declaration (name : Token) (initializer : Option Expr)
  | block (statements : List Stmt)
  | ifElse (condition : Expr) (thenBranch : Stmt) (elseBranch : Option Stmt)
  /-- The increment follows every round of the body, one cut short by `continue` included. -/
  | whileLoop (condition : Expr) (body : Stmt) (increment : Option Expr)
  | breakLoop (keyword : Token)
  | continueLoop (keyword : Token)
  | returnValue (keyword : Token) (value : Option Expr)
  /-- A node that is no statement. -/
  | misplaced (kind : NodeKind)

end

instance : Inhabited Expr := ⟨.misplaced .foreign⟩
instance : Inhabited Stmt := ⟨.misplaced .foreign⟩

/-- A program is a list of statements. -/
abbrev Program := List Stmt

/-- A function literal. -/
def Expr.isLambda : Expr → Bool
  | .lambda .. => true
  | _ => false

/-! ## Trees in which every node is where it belongs -/

mutual

/-- Every node of an expression is where it belongs. -/
def Expr.WellPlaced : Expr → Prop
  | .literal .. => True
  | .grouping _ inner => inner.WellPlaced
  | .unary _ _ right => right.WellPlaced
  | .binary _ left _ right => left.WellPlaced ∧ right.WellPlaced
  | .logical _ left _ right => left.WellPlaced ∧ right.WellPlaced
  | .step _ left _ => left.WellPlaced
  | .reference .. => True
  | .assignment _ _ value => value.WellPlaced
  | .call _ callee arguments _ => callee.WellPlaced ∧ Expr.AllWellPlaced arguments
  | .lambda _ _ _ body _ => Stmt.AllWellPlaced body
  | .misplaced _ => False

/-- Every node of every expression of a list is where it belongs. -/
def Expr.AllWellPlaced : List Expr → Prop
  | [] => True
  | e :: rest => e.WellPlaced ∧ Expr.AllWellPlaced rest

/-- Every node of an optional expression is where it belongs. -/
def Expr.OptionWellPlaced : Option Expr → Prop
  | none => True
  | some e => e.WellPlaced

/-- Every node of a statement is where it belongs. -/
def Stmt.WellPlaced : Stmt → Prop
  | .expression e => e.WellPlaced
  | .declaration _ initializer => Expr.OptionWellPlaced initializer
  | .block statements => Stmt.AllWellPlaced statements
  | .ifElse condition thenBranch elseBranch =>
    condition.WellPlaced ∧ thenBranch.WellPlaced ∧ Stmt.OptionWellPlaced elseBranch
  | .whileLoop condition body increment =>
    condition.WellPlaced ∧ body.WellPlaced ∧ Expr.OptionWellPlaced increment
  | .breakLoop _ => True
  | .continueLoop _ => True
  | .returnValue _ value => Expr.OptionWellPlaced value
  | .misplaced _ => False

/-- Every node of every statement of a list is where it belongs. -/
def Stmt.AllWellPlaced : List Stmt → Prop
  | [] => True
  | s :: rest => s.WellPlaced ∧ Stmt.AllWellPlaced rest

/-- Every node of an optional statement is where it belongs. -/
def Stmt.OptionWellPlaced : Option Stmt → Prop
  | none => True
  | some s => s.WellPlaced

end

end Lox
