import Lox.Tree.Basic

/-!
# The printed form of a tree

Trees are printed in parentheses with the operator in front, blocks in braces. A misplaced node has
no printed form; `misplaced?` finds the first one.
-/

namespace Lox

/-- A literal as it is printed, a string between double quotes. -/
def Literal.printed : Literal → String
  | .nil => "nil"
  | .bool true => "true"
  | .bool false => "false"
  | .num x => String.ofList (Number.plain.text x)
  | .str s => "\"" ++ s ++ "\""

/-- Parts in parentheses, with spaces between. -/
def parenthesized (parts : List String) : String := "(" ++ " ".intercalate parts ++ ")"

/-- Statements in braces, with spaces between. -/
def braced (statements : List String) : String := "\x7b" ++ " ".intercalate statements ++ "\x7d"

mutual

/-- The printed form of an expression. -/
def Expr.printed : Expr → String
  | .literal _ value => value.printed
  | .grouping _ inner => parenthesized ["group", inner.printed]
  | .unary _ operator right => parenthesized [operator.lexeme, right.printed]
  | .binary _ left operator right => parenthesized [operator.lexeme, left.printed, right.printed]
  | .logical _ left operator right => parenthesized [operator.lexeme, left.printed, right.printed]
  | .step _ left operator => parenthesized [operator.lexeme, left.printed]
  | .reference _ name => name.lexeme
  | .assignment _ name value => parenthesized ["=", name.lexeme, value.printed]
  | .call _ callee arguments _ =>
    parenthesized ("call" :: callee.printed :: Expr.allPrinted arguments)
  | .lambda _ _ params body _ =>
    parenthesized ["fun", parenthesized (params.map (·.lexeme)), braced (Stmt.allPrinted body)]
  | .misplaced _ => ""

/-- The printed forms of a list of expressions. -/
def Expr.allPrinted : List Expr → List String
  | [] => []
  | e :: rest => e.printed :: Expr.allPrinted rest

/-- The printed form of an expression that may be absent. -/
def Expr.optionPrinted : Option Expr → List String
  | none => []
  | some e => [e.printed]

/-- The printed form of a statement. -/
def Stmt.printed : Stmt → String
  | .expression e => e.printed ++ ";"
  | .declaration name initializer =>
    parenthesized ("var" :: name.lexeme :: Expr.optionPrinted initializer)
  | .block statements => braced (Stmt.allPrinted statements)
  | .ifElse condition thenBranch elseBranch =>
    parenthesized ("if" :: condition.printed :: thenBranch.printed :: Stmt.optionPrinted elseBranch)
  | .whileLoop condition body increment =>
    parenthesized ("while" :: condition.printed :: body.printed :: Expr.optionPrinted increment)
  | .breakLoop _ => parenthesized ["break"]
  | .continueLoop _ => parenthesized ["continue"]
  | .returnValue _ value => parenthesized ("return" :: Expr.optionPrinted value)
  | .misplaced _ => ""

/-- The printed forms of a list of statements. -/
def Stmt.allPrinted : List Stmt → List String
  | [] => []
  | s :: rest => s.printed :: Stmt.allPrinted rest

/-- The printed form of a statement that may be absent. -/
def Stmt.optionPrinted : Option Stmt → List String
  | none => []
  | some s => [s.printed]

end

/-! ## Nodes without a printed form -/

/-- A node that stands where an expression or a statement belongs. -/
inductive Misplaced
  | expression (kind : NodeKind)
  | statement (kind : NodeKind)

mutual

/-- The first misplaced node of an expression, in printing order. -/
def Expr.misplaced? : Expr → Option Misplaced
  | .literal .. => none
  | .grouping _ inner => inner.misplaced?
  | .unary _ _ right => right.misplaced?
  | .binary _ left _ right => left.misplaced?.or right.misplaced?
  | .logical _ left _ right => left.misplaced?.or right.misplaced?
  | .step _ left _ => left.misplaced?
  | .reference .. => none
  | .assignment _ _ value => value.misplaced?
  | .call _ callee arguments _ => callee.misplaced?.or (Expr.firstMisplaced? arguments)
  | .lambda _ _ _ body _ => Stmt.firstMisplaced? body
  | .misplaced kind => some (.expression kind)

/-- The first misplaced node of a list of expressions. -/
def Expr.firstMisplaced? : List Expr → Option Misplaced
  | [] => none
  | e :: rest => e.misplaced?.or (Expr.firstMisplaced? rest)

/-- The first misplaced node of an expression that may be absent. -/
def Expr.optionMisplaced? : Option Expr → Option Misplaced
  | none => none
  | some e => e.misplaced?

/-- The first misplaced node of a statement, in printing order. -/
def Stmt.misplaced? : Stmt → Option Misplaced
  | .expression e => e.misplaced?
  | .declaration _ initializer => Expr.optionMisplaced? initializer
  | .block statements => Stmt.firstMisplaced? statements
  | .ifElse condition thenBranch elseBranch =>
    (condition.misplaced?.or thenBranch.misplaced?).or (Stmt.optionMisplaced? elseBranch)
  | .whileLoop condition body increment =>
    (condition.misplaced?.or body.misplaced?).or (Expr.optionMisplaced? increment)
  | .breakLoop _ => none
  | .continueLoop _ => none
  | .returnValue _ value => Expr.optionMisplaced? value
  | .misplaced kind => some (.statement kind)

/-- The first misplaced node of a list of statements. -/
def Stmt.firstMisplaced? : List Stmt → Option Misplaced
  | [] => none
  | s :: rest => s.misplaced?.or (Stmt.firstMisplaced? rest)

/-- The first misplaced node of a statement that may be absent. -/
def Stmt.optionMisplaced? : Option Stmt → Option Misplaced
  | none => none
  | some s => s.misplaced?

end

end Lox
