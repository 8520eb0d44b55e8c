import Mathlib.Data.List.Forall2
import Lox.Proofs.Scopes.Walk

/-!
# Trees of one shape

Two trees are alike if they have the same nodes, and their tokens and numbers correspond in a way
that is given. What corresponds may depend on the scopes around a node, which are told by marks.
-/

namespace Lox

variable {μ : Type}

/-- How the parts of two trees correspond. The marks are those of the frames around a place,
innermost first. -/
structure Likeness (μ : Type) where
  /-- The lines of tokens. -/
  lines : Int → Int → Prop
  /-- What is entered, and the mark of its frame. -/
  enters : List μ → ScopeNode → ScopeNode → μ → Prop
  /-- The number and the name of a use. -/
  uses : List μ → Nat → Token → Nat → Token → Prop
  /-- A declared name. -/
  names : List μ → Token → Token → Prop
  /-- The name of a variable that is found to have no value. -/
  missing : String → String → Prop

/-- Two operators are the same up to their lines. -/
structure Token.Alike (L : Likeness μ) (t t' : Token) : Prop where
  kind : t'.kind = t.kind
  lexeme : t'.lexeme = t.lexeme
  line : L.lines t.line t'.line

mutual

/-- Two expressions are alike among the frames with the given marks. -/
inductive Expr.Alike (L : Likeness μ) : List μ → Expr → Expr → Prop
  | literal {around : List μ} (id id' : Nat) (value : Literal) :
      Expr.Alike L around (.literal id value) (.literal id' value)
  | grouping {around : List μ} {e e' : Expr} (id id' : Nat) (inner : Expr.Alike L around e e') :
      Expr.Alike L around (.grouping id e) (.grouping id' e')
  | unary {around : List μ} {operator operator' : Token} {e e' : Expr} (id id' : Nat)
      (operators : operator.Alike L operator') (right : Expr.Alike L around e e') :
      Expr.Alike L around (.unary id operator e) (.unary id' operator' e')
  | binary {around : List μ} {operator operator' : Token} {e e' f f' : Expr} (id id' : Nat)
      (left : Expr.Alike L around e e') (operators : operator.Alike L operator')
      (right : Expr.Alike L around f f') :
      Expr.Alike L around (.binary id e operator f) (.binary id' e' operator' f')
  | logical {around : List μ} {operator operator' : Token} {e e' f f' : Expr} (id id' : Nat)
      (left : Expr.Alike L around e e') (operators : operator.Alike L operator')
      (right : Expr.Alike L around f f') :
      Expr.Alike L around (.logical id e operator f) (.logical id' e' operator' f')
  | step {around : List μ} {operator operator' : Token} {e e' : Expr} (id id' : Nat)
      (left : Expr.Alike L around e e') (operators : operator.Alike L operator') :
      Expr.Alike L around (.step id e operator) (.step id' e' operator')
  | reference {around : List μ} {id id' : Nat} {name name' : Token}
      (use : L.uses around id name id' name') :
      Expr.Alike L around (.reference id name) (.reference id' name')
  | assignment {around : List μ} {id id' : Nat} {name name' : Token} {e e' : Expr}
      (use : L.uses around id name id' name') (value : Expr.Alike L around e e') :
      Expr.Alike L around (.assignment id name e) (.assignment id' name' e')
  | call {around : List μ} {e e' : Expr} {es es' : List Expr} {paren paren' : Token} (id id' : Nat)
      (callee : Expr.Alike L around e e') (arguments : Expr.AllAlike L around es es')
      (line : L.lines paren.line paren'.line) :
      Expr.Alike L around (.call id e es paren) (.call id' e' es' paren')
  | lambda {around : List μ} {keyword keyword' : Token} {params params' : List Token}
      {body body' : List Stmt} {name name' : Option Token} {mark : μ} (id id' : Nat)
      (enter : L.enters around (.function keyword params body name)
        (.function keyword' params' body' name') mark)
      (line : L.lines keyword.line keyword'.line)
      (title : name'.map (·.lexeme) = name.map (·.lexeme))
      (parameters : List.Forall₂ (L.names (mark :: around)) params params')
      (statements : Stmt.AllAlike L (mark :: around) body body') :
      Expr.Alike L around (.lambda id keyword params body name)
        (.lambda id' keyword' params' body' name')
  | misplaced {around : List μ} (kind : NodeKind) :
      Expr.Alike L around (.misplaced kind) (.misplaced kind)

/-- Expressions of two lists are alike. -/
inductive Expr.AllAlike (L : Likeness μ) : List μ → List Expr → List Expr → Prop
  | nil {around : List μ} : Expr.AllAlike L around [] []
  | cons {around : List μ} {e e' : Expr} {es es' : List Expr} (head : Expr.Alike L around e e')
      (tail : Expr.AllAlike L around es es') : Expr.AllAlike L around (e :: es) (e' :: es')

/-- Two optional expressions are alike. -/
inductive Expr.OptionAlike (L : Likeness μ) : List μ → Option Expr → Option Expr → Prop
  | none {around : List μ} : Expr.OptionAlike L around none none
  | some {around : List μ} {e e' : Expr} (value : Expr.Alike L around e e') :
      Expr.OptionAlike L around (some e) (some e')

/-- Two statements are alike among the frames with the given marks. -/
inductive Stmt.Alike (L : Likeness μ) : List μ → Stmt → Stmt → Prop
  | expression {around : List μ} {e e' : Expr} (value : Expr.Alike L around e e') :
      Stmt.Alike L around (.expression e) (.expression e')
  | declaration {around : List μ} {name name' : Token} {e e' : Option Expr}
      (names : L.names around name name') (value : Expr.OptionAlike L around e e') :
      Stmt.Alike L around (.declaration name e) (.declaration name' e')
  | block {around : List μ} {ss ss' : List Stmt} {mark : μ}
      (enter : L.enters around (.block ss) (.block ss') mark)
      (statements : Stmt.AllAlike L (mark :: around) ss ss') :
      Stmt.Alike L around (.block ss) (.block ss')
  | ifElse {around : List μ} {e e' : Expr} {s s' : Stmt} {t t' : Option Stmt}
      (condition : Expr.Alike L around e e') (thenBranch : Stmt.Alike L around s s')
      (elseBranch : Stmt.OptionAlike L around t t') :
      Stmt.Alike L around (.ifElse e s t) (.ifElse e' s' t')
  | whileLoop {around : List μ} {e e' : Expr} {s s' : Stmt} {f f' : Option Expr}
      (condition : Expr.Alike L around e e') (body : Stmt.Alike L around s s')
      (increment : Expr.OptionAlike L around f f') :
      Stmt.Alike L around (.whileLoop e s f) (.whileLoop e' s' f')
  | breakLoop {around : List μ} (keyword keyword' : Token) :
      Stmt.Alike L around (.breakLoop keyword) (.breakLoop keyword')
  | continueLoop {around : List μ} (keyword keyword' : Token) :
      Stmt.Alike L around (.continueLoop keyword) (.continueLoop keyword')
  | returnValue {around : List μ} {e e' : Option Expr} (keyword keyword' : Token)
      (value : Expr.OptionAlike L around e e') :
      Stmt.Alike L around (.returnValue keyword e) (.returnValue keyword' e')
  | misplaced {around : List μ} (kind : NodeKind) :
      Stmt.Alike L around (.misplaced kind) (.misplaced kind)

/-- Statements of two lists are alike. -/
inductive Stmt.AllAlike (L : Likeness μ) : List μ → List Stmt → List Stmt → Prop
  | nil {around : List μ} : Stmt.AllAlike L around [] []
  | cons {around : List μ} {s s' : Stmt} {ss ss' : List Stmt} (head : Stmt.Alike L around s s')
      (tail : Stmt.AllAlike L around ss ss') : Stmt.AllAlike L around (s :: ss) (s' :: ss')

/-- Two optional statements are alike. -/
inductive Stmt.OptionAlike (L : Likeness μ) : List μ → Option Stmt → Option Stmt → Prop
  | none {around : List μ} : Stmt.OptionAlike L around none none
  | some {around : List μ} {s s' : Stmt} (branch : Stmt.Alike L around s s') :
      Stmt.OptionAlike L around (some s) (some s')

end

/-! ## From one likeness to another -/

/-- What corresponds by one likeness corresponds by another one, too. -/
structure Likeness.Below (L L' : Likeness μ) : Prop where
  lines : ∀ {l l'}, L.lines l l' → L'.lines l l'
  enters : ∀ {around node node' mark}, L.enters around node node' mark →
    L'.enters around node node' mark
  uses : ∀ {around id name id' name'}, L.uses around id name id' name' →
    L'.uses around id name id' name'
  names : ∀ {around name name'}, L.names around name name' → L'.names around name name'
  missing : ∀ {name name'}, L.missing name name' → L'.missing name name'

variable {L L' : Likeness μ}

theorem Token.Alike.mono (below : L.Below L') {t t' : Token} (alike : t.Alike L t') :
    t.Alike L' t' :=
  ⟨alike.kind, alike.lexeme, below.lines alike.line⟩

mutual

theorem Expr.Alike.mono (below : L.Below L') {around : List μ} {e e' : Expr} :
    Expr.Alike L around e e' → Expr.Alike L' around e e'
  | .literal id id' value => .literal id id' value
  | .grouping id id' inner => .grouping id id' (inner.mono below)
  | .unary id id' operators right => .unary id id' (operators.mono below) (right.mono below)
  | .binary id id' left operators right =>
    .binary id id' (left.mono below) (operators.mono below) (right.mono below)
  | .logical id id' left operators right =>
    .logical id id' (left.mono below) (operators.mono below) (right.mono below)
  | .step id id' left operators => .step id id' (left.mono below) (operators.mono below)
  | .reference use => .reference (below.uses use)
  | .assignment use value => .assignment (below.uses use) (value.mono below)
  | .call id id' callee arguments line =>
    .call id id' (callee.mono below) (arguments.mono below) (below.lines line)
  | .lambda id id' enter line title parameters statements =>
    .lambda id id' (below.enters enter) (below.lines line) title
      (parameters.imp fun _ _ => below.names) (statements.mono below)
  | .misplaced kind => .misplaced kind

theorem Expr.AllAlike.mono (below : L.Below L') {around : List μ} {es es' : List Expr} :
    Expr.AllAlike L around es es' → Expr.AllAlike L' around es es'
  | .nil => .nil
  | .cons head tail => .cons (head.mono below) (tail.mono below)

theorem Expr.OptionAlike.mono (below : L.Below L') {around : List μ} {e e' : Option Expr} :
    Expr.OptionAlike L around e e' → Expr.OptionAlike L' around e e'
  | .none => .none
  | .some value => .some (value.mono below)

theorem Stmt.Alike.mono (below : L.Below L') {around : List μ} {s s' : Stmt} :
    Stmt.Alike L around s s' → Stmt.Alike L' around s s'
  | .expression value => .expression (value.mono below)
  | .declaration names value => .declaration (below.names names) (value.mono below)
  | .block enter statements => .block (below.enters enter) (statements.mono below)
  | .ifElse condition thenBranch elseBranch =>
    .ifElse (condition.mono below) (thenBranch.mono below) (elseBranch.mono below)
  | .whileLoop condition body increment =>
    .whileLoop (condition.mono below) (body.mono below) (increment.mono below)
  | .breakLoop keyword keyword' => .breakLoop keyword keyword'
  | .continueLoop keyword keyword' => .continueLoop keyword keyword'
  | .returnValue keyword keyword' value => .returnValue keyword keyword' (value.mono below)
  | .misplaced kind => .misplaced kind

theorem Stmt.AllAlike.mono (below : L.Below L') {around : List μ} {ss ss' : List Stmt} :
    Stmt.AllAlike L around ss ss' → Stmt.AllAlike L' around ss ss'
  | .nil => .nil
  | .cons head tail => .cons (head.mono below) (tail.mono below)

theorem Stmt.OptionAlike.mono (below : L.Below L') {around : List μ} {s s' : Option Stmt} :
    Stmt.OptionAlike L around s s' → Stmt.OptionAlike L' around s s'
  | .none => .none
  | .some branch => .some (branch.mono below)

end

end Lox
