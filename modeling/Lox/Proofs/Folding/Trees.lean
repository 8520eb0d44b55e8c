import Lox.Proofs.Grammar.Rules
import Lox.Proofs.Renaming.Trees

/-!
# Loops with the increment folded into the body

A loop whose body is a block can do without its increment: what is evaluated after every round can
as well stand at the end of the body, and before every `continue` that goes on with the loop. The
trees of both programs have the same tokens, and the numbers of their nodes are free.
-/

namespace Lox

/-! ## Names of a block -/

mutual

/-- The names that a statement declares, in blocks and branches inside of it as well, but not in
functions. -/
def Stmt.blockNames : Stmt → List String
  | .declaration name _ => [name.lexeme]
  | .block statements => Stmt.allBlockNames statements
  | .ifElse _ thenBranch elseBranch => thenBranch.blockNames ++ Stmt.optionBlockNames elseBranch
  | .whileLoop _ body _ => body.blockNames
  | .expression _ | .breakLoop _ | .continueLoop _ | .returnValue .. | .misplaced _ => []

/-- The names that statements declare outside of functions. -/
def Stmt.allBlockNames : List Stmt → List String
  | [] => []
  | s :: rest => s.blockNames ++ Stmt.allBlockNames rest

/-- The names that an optional statement declares outside of functions. -/
def Stmt.optionBlockNames : Option Stmt → List String
  | none => []
  | some s => s.blockNames

end

/-! ## Folded trees -/

mutual

/-- An expression with loops of its functions folded. -/
inductive Expr.Folds : Expr → Expr → Prop
  | literal (id id' : Nat) (value : Literal) : Expr.Folds (.literal id value) (.literal id' value)
  | grouping (id id' : Nat) {e e' : Expr} (inner : e.Folds e') :
      Expr.Folds (.grouping id e) (.grouping id' e')
  | unary (id id' : Nat) (operator : Token) {e e' : Expr} (right : e.Folds e') :
      Expr.Folds (.unary id operator e) (.unary id' operator e')
  | binary (id id' : Nat) (operator : Token) {e e' f f' : Expr} (left : e.Folds e')
      (right : f.Folds f') : Expr.Folds (.binary id e operator f) (.binary id' e' operator f')
  | logical (id id' : Nat) (operator : Token) {e e' f f' : Expr} (left : e.Folds e')
      (right : f.Folds f') : Expr.Folds (.logical id e operator f) (.logical id' e' operator f')
  | step (id id' : Nat) (operator : Token) {e e' : Expr} (left : e.Folds e') :
      Expr.Folds (.step id e operator) (.step id' e' operator)
  | reference (id id' : Nat) (name : Token) :
      Expr.Folds (.reference id name) (.reference id' name)
  | assignment (id id' : Nat) (name : Token) {e e' : Expr} (value : e.Folds e') :
      Expr.Folds (.assignment id name e) (.assignment id' name e')
  | call (id id' : Nat) (paren : Token) {e e' : Expr} {es es' : List Expr} (callee : e.Folds e')
      (arguments : Expr.AllFolds es es') : Expr.Folds (.call id e es paren) (.call id' e' es' paren)
  | lambda (id id' : Nat) (keyword : Token) (params : List Token) (name : Option Token)
      {body body' : List Stmt} (statements : Stmt.AllFolds none body body') :
      Expr.Folds (.lambda id keyword params body name) (.lambda id' keyword params body' name)
  | misplaced (kind : NodeKind) : Expr.Folds (.misplaced kind) (.misplaced kind)

/-- Expressions with loops of their functions folded. -/
inductive Expr.AllFolds : List Expr → List Expr → Prop
  | nil : Expr.AllFolds [] []
  | cons {e e' : Expr} {es es' : List Expr} (head : e.Folds e') (tail : Expr.AllFolds es es') :
      Expr.AllFolds (e :: es) (e' :: es')

/-- An optional expression with loops of its functions folded. -/
inductive Expr.OptionFolds : Option Expr → Option Expr → Prop
  | none : Expr.OptionFolds none none
  | some {e e' : Expr} (value : e.Folds e') : Expr.OptionFolds (some e) (some e')

/-- A statement with loops in it folded. If it stands in the body of a loop that is folded itself,
outside of the loops and functions inside of that body, the increment of the loop is given. -/
inductive Stmt.Folds : Option Expr → Stmt → Stmt → Prop
  | expression {onward : Option Expr} {e e' : Expr} (value : e.Folds e') :
      Stmt.Folds onward (.expression e) (.expression e')
  | declaration {onward : Option Expr} (name : Token) {e e' : Option Expr}
      (initializer : Expr.OptionFolds e e') :
      Stmt.Folds onward (.declaration name e) (.declaration name e')
  | block {onward : Option Expr} {ss ss' : List Stmt} (statements : Stmt.AllFolds onward ss ss') :
      Stmt.Folds onward (.block ss) (.block ss')
  | ifElse {onward : Option Expr} {e e' : Expr} {s s' : Stmt} {t t' : Option Stmt}
      (condition : e.Folds e') (thenBranch : Stmt.Folds onward s s')
      (elseBranch : Stmt.OptionFolds onward t t') :
      Stmt.Folds onward (.ifElse e s t) (.ifElse e' s' t')
  | whileLoop {onward : Option Expr} {e e' : Expr} {s s' : Stmt} {f f' : Option Expr}
      (condition : e.Folds e') (body : Stmt.Folds none s s') (increment : Expr.OptionFolds f f') :
      Stmt.Folds onward (.whileLoop e s f) (.whileLoop e' s' f')
  /-- A loop is folded. In its body no name of its increment is declared. -/
  | foldedLoop {onward : Option Expr} {e e' r r' : Expr} {ss ss' : List Stmt}
      (apart : ∀ name ∈ r.names, name ∉ Stmt.allBlockNames ss) (condition : e.Folds e')
      (body : Stmt.AllFolds (some r) ss ss') (increment : r.Folds r') :
      Stmt.Folds onward (.whileLoop e (.block ss) (some r))
        (.whileLoop e' (.block [.block ss', .expression r']) none)
  | breakLoop {onward : Option Expr} (keyword : Token) :
      Stmt.Folds onward (.breakLoop keyword) (.breakLoop keyword)
  | continueLoop (keyword : Token) :
      Stmt.Folds none (.continueLoop keyword) (.continueLoop keyword)
  /-- The increment comes before going on with a folded loop. -/
  | foldedContinue (keyword : Token) {r r' : Expr} (increment : r.Folds r') :
      Stmt.Folds (some r) (.continueLoop keyword)
        (.block [.expression r', .continueLoop keyword])
  | returnValue {onward : Option Expr} (keyword : Token) {e e' : Option Expr}
      (value : Expr.OptionFolds e e') :
      Stmt.Folds onward (.returnValue keyword e) (.returnValue keyword e')
  | misplaced {onward : Option Expr} (kind : NodeKind) :
      Stmt.Folds onward (.misplaced kind) (.misplaced kind)

/-- Statements with loops in them folded. -/
inductive Stmt.AllFolds : Option Expr → List Stmt → List Stmt → Prop
  | nil {onward : Option Expr} : Stmt.AllFolds onward [] []
  | cons {onward : Option Expr} {s s' : Stmt} {ss ss' : List Stmt} (head : Stmt.Folds onward s s')
      (tail : Stmt.AllFolds onward ss ss') : Stmt.AllFolds onward (s :: ss) (s' :: ss')

/-- An optional statement with loops in it folded. -/
inductive Stmt.OptionFolds : Option Expr → Option Stmt → Option Stmt → Prop
  | none {onward : Option Expr} : Stmt.OptionFolds onward none none
  | some {onward : Option Expr} {s s' : Stmt} (branch : Stmt.Folds onward s s') :
      Stmt.OptionFolds onward (some s) (some s')

end

/-- A program with any number of its loops folded. -/
def Program.Folds (p p' : Program) : Prop := Stmt.AllFolds none p p'

/-! ## Folding one loop alone -/

mutual

/-- Nothing has to be folded. -/
theorem Expr.folds_self (e : Expr) : e.Folds e := by
  cases e with
  | literal id value => exact .literal id id value
  | grouping id inner => exact .grouping id id (Expr.folds_self inner)
  | unary id operator right => exact .unary id id operator (Expr.folds_self right)
  | binary id left operator right =>
    exact .binary id id operator (Expr.folds_self left) (Expr.folds_self right)
  | logical id left operator right =>
    exact .logical id id operator (Expr.folds_self left) (Expr.folds_self right)
  | step id left operator => exact .step id id operator (Expr.folds_self left)
  | reference id name => exact .reference id id name
  | assignment id name value => exact .assignment id id name (Expr.folds_self value)
  | call id callee arguments paren =>
    exact .call id id paren (Expr.folds_self callee) (Expr.allFolds_self arguments)
  | lambda id keyword params body name =>
    exact .lambda id id keyword params name (Stmt.allFolds_self body)
  | misplaced kind => exact .misplaced kind

theorem Expr.allFolds_self (es : List Expr) : Expr.AllFolds es es := by
  cases es with
  | nil => exact .nil
  | cons e rest => exact .cons (Expr.folds_self e) (Expr.allFolds_self rest)

theorem Expr.optionFolds_self (e? : Option Expr) : Expr.OptionFolds e? e? := by
  cases e? with
  | none => exact .none
  | some e => exact .some (Expr.folds_self e)

theorem Stmt.folds_self (s : Stmt) : Stmt.Folds none s s := by
  cases s with
  | expression e => exact .expression (Expr.folds_self e)
  | declaration name initializer => exact .declaration name (Expr.optionFolds_self initializer)
  | block statements => exact .block (Stmt.allFolds_self statements)
  | ifElse condition thenBranch elseBranch =>
    exact .ifElse (Expr.folds_self condition) (Stmt.folds_self thenBranch)
      (Stmt.optionFolds_self elseBranch)
  | whileLoop condition body increment =>
    exact .whileLoop (Expr.folds_self condition) (Stmt.folds_self body)
      (Expr.optionFolds_self increment)
  | breakLoop keyword => exact .breakLoop keyword
  | continueLoop keyword => exact .continueLoop keyword
  | returnValue keyword value => exact .returnValue keyword (Expr.optionFolds_self value)
  | misplaced kind => exact .misplaced kind

theorem Stmt.allFolds_self (ss : List Stmt) : Stmt.AllFolds none ss ss := by
  cases ss with
  | nil => exact .nil
  | cons s rest => exact .cons (Stmt.folds_self s) (Stmt.allFolds_self rest)

theorem Stmt.optionFolds_self (s? : Option Stmt) : Stmt.OptionFolds none s? s? := by
  cases s? with
  | none => exact .none
  | some s => exact .some (Stmt.folds_self s)

end

mutual

/-- A statement with an expression evaluated before every `continue` of the loop around it. -/
def Stmt.evaluating (r : Expr) : Stmt → Stmt
  | .block statements => .block (Stmt.allEvaluating r statements)
  | .ifElse condition thenBranch elseBranch =>
    .ifElse condition (thenBranch.evaluating r) (Stmt.optionEvaluating r elseBranch)
  | .continueLoop keyword => .block [.expression r, .continueLoop keyword]
  | s => s

/-- Statements with an expression evaluated before every `continue` of the loop around them. -/
def Stmt.allEvaluating (r : Expr) : List Stmt → List Stmt
  | [] => []
  | s :: rest => s.evaluating r :: Stmt.allEvaluating r rest

/-- An optional statement with an expression evaluated before every `continue` of the loop around
it. -/
def Stmt.optionEvaluating (r : Expr) : Option Stmt → Option Stmt
  | none => none
  | some s => some (s.evaluating r)

end

mutual

theorem Stmt.folds_evaluating (r : Expr) (s : Stmt) : Stmt.Folds (some r) s (s.evaluating r) := by
  cases s with
  | expression e => exact .expression (Expr.folds_self e)
  | declaration name initializer => exact .declaration name (Expr.optionFolds_self initializer)
  | block statements => exact .block (Stmt.allFolds_evaluating r statements)
  | ifElse condition thenBranch elseBranch =>
    exact .ifElse (Expr.folds_self condition) (Stmt.folds_evaluating r thenBranch)
      (Stmt.optionFolds_evaluating r elseBranch)
  | whileLoop condition body increment =>
    exact .whileLoop (Expr.folds_self condition) (Stmt.folds_self body)
      (Expr.optionFolds_self increment)
  | breakLoop keyword => exact .breakLoop keyword
  | continueLoop keyword => exact .foldedContinue keyword (Expr.folds_self r)
  | returnValue keyword value => exact .returnValue keyword (Expr.optionFolds_self value)
  | misplaced kind => exact .misplaced kind

theorem Stmt.allFolds_evaluating (r : Expr) (ss : List Stmt) :
    Stmt.AllFolds (some r) ss (Stmt.allEvaluating r ss) := by
  cases ss with
  | nil => exact .nil
  | cons s rest => exact .cons (Stmt.folds_evaluating r s) (Stmt.allFolds_evaluating r rest)

theorem Stmt.optionFolds_evaluating (r : Expr) (s? : Option Stmt) :
    Stmt.OptionFolds (some r) s? (Stmt.optionEvaluating r s?) := by
  cases s? with
  | none => exact .none
  | some s => exact .some (Stmt.folds_evaluating r s)

end

/-- Every `for` loop with an increment whose body is a block can be folded, and everything else left
as it is, if the block declares no name of the increment. -/
theorem Stmt.folds_loop (first : Option Stmt) (condition r : Expr) {ss : List Stmt}
    (apart : ∀ name ∈ r.names, name ∉ Stmt.allBlockNames ss) :
    Stmt.Folds none (Grammar.loop first condition (.block ss) (some r))
      (Grammar.loop first condition
        (.block [.block (Stmt.allEvaluating r ss), .expression r]) none) := by
  have folded : Stmt.Folds none (.whileLoop condition (.block ss) (some r))
      (.whileLoop condition (.block [.block (Stmt.allEvaluating r ss), .expression r]) none) :=
    .foldedLoop apart (Expr.folds_self condition) (Stmt.allFolds_evaluating r ss)
      (Expr.folds_self r)
  cases first with
  | none => exact folded
  | some s => exact .block (.cons (Stmt.folds_self s) (.cons folded .nil))

end Lox
