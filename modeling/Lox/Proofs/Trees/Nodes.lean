import Lox.Proofs.Trees.Uses

/-!
# The nodes of a tree

All expressions of a tree, in the order in which a walk leaves them: those inside of an expression
come before it, also those in the body of a function.
-/

namespace Lox

mutual

/-- The expressions inside of an expression. -/
def Expr.enclosed : Expr → List Expr
  | .literal .. | .reference .. | .misplaced _ => []
  | .grouping _ inner => inner.enclosed ++ [inner]
  | .unary _ _ right => right.enclosed ++ [right]
  | .binary _ left _ right => (left.enclosed ++ [left]) ++ (right.enclosed ++ [right])
  | .logical _ left _ right => (left.enclosed ++ [left]) ++ (right.enclosed ++ [right])
  | .step _ left _ => left.enclosed ++ [left]
  | .assignment _ _ value => value.enclosed ++ [value]
  | .call _ callee arguments _ => (callee.enclosed ++ [callee]) ++ Expr.allNodes arguments
  | .lambda _ _ _ body _ => Stmt.allNodes body

/-- The expressions of a list, and those inside of them. -/
def Expr.allNodes : List Expr → List Expr
  | [] => []
  | e :: rest => (e.enclosed ++ [e]) ++ Expr.allNodes rest

/-- An optional expression and those inside of it. -/
def Expr.optionNodes : Option Expr → List Expr
  | none => []
  | some e => e.enclosed ++ [e]

/-- The expressions of a statement. -/
def Stmt.nodes : Stmt → List Expr
  | .expression e => e.enclosed ++ [e]
  | .declaration _ initializer => Expr.optionNodes initializer
  | .block statements => Stmt.allNodes statements
  | .ifElse condition thenBranch elseBranch =>
    (condition.enclosed ++ [condition]) ++ (thenBranch.nodes ++ Stmt.optionNodes elseBranch)
  | .whileLoop condition body increment =>
    (condition.enclosed ++ [condition]) ++ (body.nodes ++ Expr.optionNodes increment)
  | .breakLoop _ | .continueLoop _ | .misplaced _ => []
  | .returnValue _ value => Expr.optionNodes value

/-- The expressions of statements. -/
def Stmt.allNodes : List Stmt → List Expr
  | [] => []
  | s :: rest => s.nodes ++ Stmt.allNodes rest

/-- The expressions of an optional statement. -/
def Stmt.optionNodes : Option Stmt → List Expr
  | none => []
  | some s => s.nodes

end

/-- An expression and those inside of it. -/
def Expr.nodes (e : Expr) : List Expr := e.enclosed ++ [e]

/-- The expressions of a program. -/
def Program.nodes (p : Program) : List Expr := Stmt.allNodes p

/-- The number of an expression; what is no expression has none. -/
def Expr.number : Expr → Nat
  | .literal id _ | .grouping id _ | .unary id _ _ | .binary id _ _ _ | .logical id _ _ _
  | .step id _ _ | .reference id _ | .assignment id _ _ | .call id _ _ _ | .lambda id _ _ _ _ => id
  | .misplaced _ => 0

def Expr.isAssignment : Expr → Bool
  | .assignment .. => true
  | _ => false

/-- A reference or an assignment. -/
def Expr.isUse : Expr → Bool
  | .reference .. | .assignment .. => true
  | _ => false

/-! ## The uses among the nodes -/

/-- The numbers of the uses among some expressions. -/
def usesAmong (nodes : List Expr) : List Nat := (nodes.filter Expr.isUse).map Expr.number

theorem usesAmong_append (nodes nodes' : List Expr) :
    usesAmong (nodes ++ nodes') = usesAmong nodes ++ usesAmong nodes' := by
  unfold usesAmong
  rw [List.filter_append, List.map_append]

mutual

theorem Expr.usesAmong_nodes (e : Expr) : usesAmong (e.enclosed ++ [e]) = e.useIds := by
  cases e with
  | literal | reference | misplaced => rfl
  | grouping _ inner | unary _ _ inner | step _ inner _ =>
    rw [Expr.enclosed, usesAmong_append, Expr.usesAmong_nodes inner]
    simp [Expr.useIds, usesAmong, Expr.isUse]
  | assignment id name value =>
    rw [Expr.enclosed, usesAmong_append, Expr.usesAmong_nodes value]
    rfl
  | binary _ left _ right | logical _ left _ right =>
    rw [Expr.enclosed, usesAmong_append, usesAmong_append, Expr.usesAmong_nodes left,
      Expr.usesAmong_nodes right]
    simp [Expr.useIds, usesAmong, Expr.isUse]
  | call _ callee arguments _ =>
    rw [Expr.enclosed, usesAmong_append, usesAmong_append, Expr.usesAmong_nodes callee,
      Expr.usesAmong_allNodes arguments]
    simp [Expr.useIds, usesAmong, Expr.isUse]
  | lambda _ _ _ body _ =>
    rw [Expr.enclosed, usesAmong_append, Stmt.usesAmong_allNodes body]
    simp [Expr.useIds, usesAmong, Expr.isUse]

theorem Expr.usesAmong_allNodes (es : List Expr) :
    usesAmong (Expr.allNodes es) = Expr.allUseIds es := by
  cases es with
  | nil => rfl
  | cons e rest =>
    rw [Expr.allNodes, usesAmong_append, Expr.usesAmong_nodes e, Expr.usesAmong_allNodes rest,
      Expr.allUseIds]

theorem Expr.usesAmong_optionNodes (e? : Option Expr) :
    usesAmong (Expr.optionNodes e?) = Expr.optionUseIds e? := by
  cases e? with
  | none => rfl
  | some e => exact Expr.usesAmong_nodes e

theorem Stmt.usesAmong_nodes (s : Stmt) : usesAmong s.nodes = s.useIds := by
  cases s with
  | expression e => exact Expr.usesAmong_nodes e
  | declaration _ e? => exact Expr.usesAmong_optionNodes e?
  | block ss => exact Stmt.usesAmong_allNodes ss
  | ifElse condition thenBranch elseBranch =>
    rw [Stmt.nodes, usesAmong_append, Expr.usesAmong_nodes condition, usesAmong_append,
      Stmt.usesAmong_nodes thenBranch, Stmt.usesAmong_optionNodes elseBranch, Stmt.useIds]
  | whileLoop condition body increment =>
    rw [Stmt.nodes, usesAmong_append, Expr.usesAmong_nodes condition, usesAmong_append,
      Stmt.usesAmong_nodes body, Expr.usesAmong_optionNodes increment, Stmt.useIds]
  | breakLoop | continueLoop | misplaced => rfl
  | returnValue _ e? => exact Expr.usesAmong_optionNodes e?

theorem Stmt.usesAmong_allNodes (ss : List Stmt) :
    usesAmong (Stmt.allNodes ss) = Stmt.allUseIds ss := by
  cases ss with
  | nil => rfl
  | cons s rest =>
    rw [Stmt.allNodes, usesAmong_append, Stmt.usesAmong_nodes s, Stmt.usesAmong_allNodes rest,
      Stmt.allUseIds]

theorem Stmt.usesAmong_optionNodes (s? : Option Stmt) :
    usesAmong (Stmt.optionNodes s?) = Stmt.optionUseIds s? := by
  cases s? with
  | none => rfl
  | some s => exact Stmt.usesAmong_nodes s

end

/-- The uses of a program are those among its nodes, in the same order. -/
theorem Program.usesAmong_nodes (p : Program) : usesAmong p.nodes = p.useIds :=
  Stmt.usesAmong_allNodes p

end Lox
