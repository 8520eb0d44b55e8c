import Lox.Proofs.Folding.Trees
import Lox.Scope.Distance

/-!
# The scopes of folded trees

Around a place of a folded tree there may be more scopes than around the same place before. So uses
of names are at other distances, but lead to the same scopes.
-/

namespace Lox

/-- A scope around a place of a folded tree. -/
inductive Layer
  /-- It was there before. -/
  | shared
  | extra

/-- The scopes around a place of a folded tree, innermost first. -/
abbrev Layers := List Layer

/-- A scope at one distance before is the one at another distance now. -/
inductive Layers.Leads : Layers → Nat → Nat → Prop
  | here {L : Layers} : Layers.Leads (.shared :: L) 0 0
  | shared {L : Layers} {distance distance' : Nat} (outer : L.Leads distance distance') :
      Layers.Leads (.shared :: L) (distance + 1) (distance' + 1)
  | extra {L : Layers} {distance distance' : Nat} (outer : L.Leads distance distance') :
      Layers.Leads (.extra :: L) distance (distance' + 1)

/-- A use leads to the same scope as another use before, or both are of global variables. -/
inductive UseMoved (T T' : Distances) (L : Layers) (id id' : Nat) : Prop
  | global (missing : T[id]? = none) (missing' : T'[id']? = none)
  | found {distance distance' : Nat} (isFound : T[id]? = some distance)
      (isFound' : T'[id']? = some distance') (leads : L.Leads distance distance')

/-- The increment of a folded loop around a place, with the scopes around that place, of which those
around the loop were there before. -/
abbrev Resumption := Option (Expr × Layers)

/-- The increment as seen from a scope further inside. -/
def Resumption.enter : Resumption → Resumption :=
  Option.map fun (r, R) => (r, .extra :: R)

section
variable (T T' : Distances)

mutual

/-- An expression is folded, and its uses lead to the same scopes. -/
inductive Expr.Moved : Layers → Expr → Expr → Prop
  | literal {L : Layers} (id id' : Nat) (value : Literal) :
      Expr.Moved L (.literal id value) (.literal id' value)
  | grouping {L : Layers} (id id' : Nat) {e e' : Expr} (inner : Expr.Moved L e e') :
      Expr.Moved L (.grouping id e) (.grouping id' e')
  | unary {L : Layers} (id id' : Nat) (operator : Token) {e e' : Expr}
      (right : Expr.Moved L e e') : Expr.Moved L (.unary id operator e) (.unary id' operator e')
  | binary {L : Layers} (id id' : Nat) (operator : Token) {e e' f f' : Expr}
      (left : Expr.Moved L e e') (right : Expr.Moved L f f') :
      Expr.Moved L (.binary id e operator f) (.binary id' e' operator f')
  | logical {L : Layers} (id id' : Nat) (operator : Token) {e e' f f' : Expr}
      (left : Expr.Moved L e e') (right : Expr.Moved L f f') :
      Expr.Moved L (.logical id e operator f) (.logical id' e' operator f')
  | step {L : Layers} (id id' : Nat) (operator : Token) {e e' : Expr}
      (left : Expr.Moved L e e') : Expr.Moved L (.step id e operator) (.step id' e' operator)
  | reference {L : Layers} {id id' : Nat} (name : Token) (use : UseMoved T T' L id id') :
      Expr.Moved L (.reference id name) (.reference id' name)
  | assignment {L : Layers} {id id' : Nat} (name : Token) {e e' : Expr}
      (value : Expr.Moved L e e') (use : UseMoved T T' L id id') :
      Expr.Moved L (.assignment id name e) (.assignment id' name e')
  | call {L : Layers} (id id' : Nat) (paren : Token) {e e' : Expr} {es es' : List Expr}
      (callee : Expr.Moved L e e') (arguments : Expr.AllMoved L es es') :
      Expr.Moved L (.call id e es paren) (.call id' e' es' paren)
  | lambda {L : Layers} (id id' : Nat) (keyword : Token) (params : List Token)
      (name : Option Token) {body body' : List Stmt}
      (statements : Stmt.AllMoved (.shared :: L) none body body') :
      Expr.Moved L (.lambda id keyword params body name) (.lambda id' keyword params body' name)
  | misplaced {L : Layers} (kind : NodeKind) : Expr.Moved L (.misplaced kind) (.misplaced kind)

/-- Expressions are folded, and their uses lead to the same scopes. -/
inductive Expr.AllMoved : Layers → List Expr → List Expr → Prop
  | nil {L : Layers} : Expr.AllMoved L [] []
  | cons {L : Layers} {e e' : Expr} {es es' : List Expr} (head : Expr.Moved L e e')
      (tail : Expr.AllMoved L es es') : Expr.AllMoved L (e :: es) (e' :: es')

/-- An optional expression is folded, and its uses lead to the same scopes. -/
inductive Expr.OptionMoved : Layers → Option Expr → Option Expr → Prop
  | none {L : Layers} : Expr.OptionMoved L none none
  | some {L : Layers} {e e' : Expr} (value : Expr.Moved L e e') :
      Expr.OptionMoved L (some e) (some e')

/-- A statement is folded, and its uses lead to the same scopes. Nothing is declared in a scope that
was not there before. -/
inductive Stmt.Moved : Layers → Resumption → Stmt → Stmt → Prop
  | expression {L : Layers} {onward : Resumption} {e e' : Expr} (value : Expr.Moved L e e') :
      Stmt.Moved L onward (.expression e) (.expression e')
  | declaration {L : Layers} {onward : Resumption} (name : Token) {e e' : Option Expr}
      (declares : L.head? ≠ some .extra) (initializer : Expr.OptionMoved L e e') :
      Stmt.Moved L onward (.declaration name e) (.declaration name e')
  | block {L : Layers} {onward : Resumption} {ss ss' : List Stmt}
      (statements : Stmt.AllMoved (.shared :: L) onward.enter ss ss') :
      Stmt.Moved L onward (.block ss) (.block ss')
  | ifElse {L : Layers} {onward : Resumption} {e e' : Expr} {s s' : Stmt} {t t' : Option Stmt}
      (condition : Expr.Moved L e e') (thenBranch : Stmt.Moved L onward s s')
      (elseBranch : Stmt.OptionMoved L onward t t') :
      Stmt.Moved L onward (.ifElse e s t) (.ifElse e' s' t')
  | whileLoop {L : Layers} {onward : Resumption} {e e' : Expr} {s s' : Stmt} {f f' : Option Expr}
      (condition : Expr.Moved L e e') (body : Stmt.Moved L none s s')
      (increment : Expr.OptionMoved L f f') :
      Stmt.Moved L onward (.whileLoop e s f) (.whileLoop e' s' f')
  | foldedLoop {L : Layers} {onward : Resumption} {e e' r r' : Expr} {ss ss' : List Stmt}
      (condition : Expr.Moved L e e')
      (body : Stmt.Moved (.extra :: L) (some (r, .extra :: L)) (.block ss) (.block ss'))
      (increment : Expr.Moved (.extra :: L) r r') :
      Stmt.Moved L onward (.whileLoop e (.block ss) (some r))
        (.whileLoop e' (.block [.block ss', .expression r']) none)
  | breakLoop {L : Layers} {onward : Resumption} (keyword : Token) :
      Stmt.Moved L onward (.breakLoop keyword) (.breakLoop keyword)
  | continueLoop {L : Layers} (keyword : Token) :
      Stmt.Moved L none (.continueLoop keyword) (.continueLoop keyword)
  | foldedContinue {L R : Layers} (keyword : Token) {r r' : Expr}
      (increment : Expr.Moved (.extra :: R) r r') :
      Stmt.Moved L (some (r, R)) (.continueLoop keyword)
        (.block [.expression r', .continueLoop keyword])
  | returnValue {L : Layers} {onward : Resumption} (keyword : Token) {e e' : Option Expr}
      (value : Expr.OptionMoved L e e') :
      Stmt.Moved L onward (.returnValue keyword e) (.returnValue keyword e')
  | misplaced {L : Layers} {onward : Resumption} (kind : NodeKind) :
      Stmt.Moved L onward (.misplaced kind) (.misplaced kind)

/-- Statements are folded, and their uses lead to the same scopes. -/
inductive Stmt.AllMoved : Layers → Resumption → List Stmt → List Stmt → Prop
  | nil {L : Layers} {onward : Resumption} : Stmt.AllMoved L onward [] []
  | cons {L : Layers} {onward : Resumption} {s s' : Stmt} {ss ss' : List Stmt}
      (head : Stmt.Moved L onward s s') (tail : Stmt.AllMoved L onward ss ss') :
      Stmt.AllMoved L onward (s :: ss) (s' :: ss')

/-- An optional statement is folded, and its uses lead to the same scopes. -/
inductive Stmt.OptionMoved : Layers → Resumption → Option Stmt → Option Stmt → Prop
  | none {L : Layers} {onward : Resumption} : Stmt.OptionMoved L onward none none
  | some {L : Layers} {onward : Resumption} {s s' : Stmt} (branch : Stmt.Moved L onward s s') :
      Stmt.OptionMoved L onward (some s) (some s')

end

end

end Lox
