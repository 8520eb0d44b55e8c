import Lox.Tree.Basic

/-!
# Trees with other lines and other numbers

Two trees of one shape can differ in the lines of their tokens and in the numbers of their nodes.
A tree is relabelled by a change of lines and a change of numbers; without its numbers it is bare.
-/

namespace Lox

/-- A token on another line. -/
def Token.relabel (lines : Int → Int) (t : Token) : Token := { t with line := lines t.line }

section
variable (lines : Int → Int) (numbers : Nat → Nat)

mutual

/-- An expression with the lines of its tokens and the numbers of its nodes changed. -/
def Expr.relabel : Expr → Expr
  | .literal id value => .literal (numbers id) value
  | .grouping id inner => .grouping (numbers id) inner.relabel
  | .unary id operator right => .unary (numbers id) (operator.relabel lines) right.relabel
  | .binary id left operator right =>
    .binary (numbers id) left.relabel (operator.relabel lines) right.relabel
  | .logical id left operator right =>
    .logical (numbers id) left.relabel (operator.relabel lines) right.relabel
  | .step id left operator => .step (numbers id) left.relabel (operator.relabel lines)
  | .reference id name => .reference (numbers id) (name.relabel lines)
  | .assignment id name value => .assignment (numbers id) (name.relabel lines) value.relabel
  | .call id callee arguments paren =>
    .call (numbers id) callee.relabel (Expr.relabelAll arguments) (paren.relabel lines)
  | .lambda id keyword params body name =>
    .lambda (numbers id) (keyword.relabel lines) (params.map (·.relabel lines))
      (Stmt.relabelAll body) (name.map (·.relabel lines))
  | .misplaced kind => .misplaced kind

/-- Expressions with their lines and numbers changed. -/
def Expr.relabelAll : List Expr → List Expr
  | [] => []
  | e :: rest => e.relabel :: Expr.relabelAll rest

/-- An optional expression with its lines and numbers changed. -/
def Expr.relabelOption : Option Expr → Option Expr
  | none => none
  | some e => some e.relabel

/-- A statement with the lines of its tokens and the numbers of its nodes changed. -/
def Stmt.relabel : Stmt → Stmt
  | .expression e => .expression e.relabel
  | .declaration name initializer =>
    .declaration (name.relabel lines) (Expr.relabelOption initializer)
  | .block statements => .block (Stmt.relabelAll statements)
  | .ifElse condition thenBranch elseBranch =>
    .ifElse condition.relabel thenBranch.relabel (Stmt.relabelOption elseBranch)
  | .whileLoop condition body increment =>
    .whileLoop condition.relabel body.relabel (Expr.relabelOption increment)
  | .breakLoop keyword => .breakLoop (keyword.relabel lines)
  | .continueLoop keyword => .continueLoop (keyword.relabel lines)
  | .returnValue keyword value => .returnValue (keyword.relabel lines) (Expr.relabelOption value)
  | .misplaced kind => .misplaced kind

/-- Statements with their lines and numbers changed. -/
def Stmt.relabelAll : List Stmt → List Stmt
  | [] => []
  | s :: rest => s.relabel :: Stmt.relabelAll rest

/-- An optional statement with its lines and numbers changed. -/
def Stmt.relabelOption : Option Stmt → Option Stmt
  | none => none
  | some s => some s.relabel

end

end

/-! ## Changes one after the other -/

theorem Token.relabel_relabel (h h' : Int → Int) (t : Token) :
    (t.relabel h).relabel h' = t.relabel (h' ∘ h) := rfl

section
variable (h h' : Int → Int) (g g' : Nat → Nat)

mutual

theorem Expr.relabel_relabel (e : Expr) :
    (e.relabel h g).relabel h' g' = e.relabel (h' ∘ h) (g' ∘ g) := by
  cases e with
  | literal | reference | misplaced => rfl
  | grouping _ inner | unary _ _ inner | step _ inner | assignment _ _ inner =>
    simp [Expr.relabel, Expr.relabel_relabel inner, Token.relabel_relabel]
  | binary _ left _ right | logical _ left _ right =>
    simp [Expr.relabel, Expr.relabel_relabel left, Expr.relabel_relabel right,
      Token.relabel_relabel]
  | call _ callee arguments _ =>
    simp [Expr.relabel, Expr.relabel_relabel callee, Expr.relabelAll_relabelAll arguments,
      Token.relabel_relabel]
  | lambda _ _ params body name =>
    simp [Expr.relabel, Stmt.relabelAll_relabelAll body, Function.comp_def, Token.relabel_relabel]

theorem Expr.relabelAll_relabelAll (es : List Expr) :
    Expr.relabelAll h' g' (Expr.relabelAll h g es) = Expr.relabelAll (h' ∘ h) (g' ∘ g) es := by
  cases es with
  | nil => rfl
  | cons e rest =>
    simp [Expr.relabelAll, Expr.relabel_relabel e, Expr.relabelAll_relabelAll rest]

theorem Expr.relabelOption_relabelOption (e? : Option Expr) :
    Expr.relabelOption h' g' (Expr.relabelOption h g e?) =
      Expr.relabelOption (h' ∘ h) (g' ∘ g) e? := by
  cases e? with
  | none => rfl
  | some e => simp [Expr.relabelOption, Expr.relabel_relabel e]

theorem Stmt.relabel_relabel (s : Stmt) :
    (s.relabel h g).relabel h' g' = s.relabel (h' ∘ h) (g' ∘ g) := by
  cases s with
  | breakLoop | continueLoop | misplaced => rfl
  | expression e => simp [Stmt.relabel, Expr.relabel_relabel e]
  | declaration _ e? | returnValue _ e? =>
    simp [Stmt.relabel, Expr.relabelOption_relabelOption e?, Token.relabel_relabel]
  | block statements => simp [Stmt.relabel, Stmt.relabelAll_relabelAll statements]
  | ifElse condition thenBranch elseBranch =>
    simp [Stmt.relabel, Expr.relabel_relabel condition, Stmt.relabel_relabel thenBranch,
      Stmt.relabelOption_relabelOption elseBranch]
  | whileLoop condition body increment =>
    simp [Stmt.relabel, Expr.relabel_relabel condition, Stmt.relabel_relabel body,
      Expr.relabelOption_relabelOption increment]

theorem Stmt.relabelAll_relabelAll (ss : List Stmt) :
    Stmt.relabelAll h' g' (Stmt.relabelAll h g ss) = Stmt.relabelAll (h' ∘ h) (g' ∘ g) ss := by
  cases ss with
  | nil => rfl
  | cons s rest =>
    simp [Stmt.relabelAll, Stmt.relabel_relabel s, Stmt.relabelAll_relabelAll rest]

theorem Stmt.relabelOption_relabelOption (s? : Option Stmt) :
    Stmt.relabelOption h' g' (Stmt.relabelOption h g s?) =
      Stmt.relabelOption (h' ∘ h) (g' ∘ g) s? := by
  cases s? with
  | none => rfl
  | some s => simp [Stmt.relabelOption, Stmt.relabel_relabel s]

end

end

/-! ## No change -/

mutual

theorem Expr.relabel_id (e : Expr) : e.relabel id id = e := by
  cases e with
  | literal | reference | misplaced => rfl
  | grouping _ inner | unary _ _ inner | step _ inner | assignment _ _ inner =>
    simp [Expr.relabel, Expr.relabel_id inner, Token.relabel]
  | binary _ left _ right | logical _ left _ right =>
    simp [Expr.relabel, Expr.relabel_id left, Expr.relabel_id right, Token.relabel]
  | call _ callee arguments _ =>
    simp [Expr.relabel, Expr.relabel_id callee, Expr.relabelAll_id arguments, Token.relabel]
  | lambda _ _ params body name =>
    cases name <;> simp [Expr.relabel, Stmt.relabelAll_id body, Token.relabel]

theorem Expr.relabelAll_id (es : List Expr) : Expr.relabelAll id id es = es := by
  cases es with
  | nil => rfl
  | cons e rest => simp [Expr.relabelAll, Expr.relabel_id e, Expr.relabelAll_id rest]

theorem Expr.relabelOption_id (e? : Option Expr) : Expr.relabelOption id id e? = e? := by
  cases e? with
  | none => rfl
  | some e => simp [Expr.relabelOption, Expr.relabel_id e]

theorem Stmt.relabel_id (s : Stmt) : s.relabel id id = s := by
  cases s with
  | expression e => simp [Stmt.relabel, Expr.relabel_id e]
  | declaration _ initializer =>
    simp [Stmt.relabel, Expr.relabelOption_id initializer, Token.relabel]
  | block statements => simp [Stmt.relabel, Stmt.relabelAll_id statements]
  | ifElse condition thenBranch elseBranch =>
    simp [Stmt.relabel, Expr.relabel_id condition, Stmt.relabel_id thenBranch,
      Stmt.relabelOption_id elseBranch]
  | whileLoop condition body increment =>
    simp [Stmt.relabel, Expr.relabel_id condition, Stmt.relabel_id body,
      Expr.relabelOption_id increment]
  | returnValue _ value => simp [Stmt.relabel, Expr.relabelOption_id value, Token.relabel]
  | breakLoop | continueLoop | misplaced => rfl

theorem Stmt.relabelAll_id (ss : List Stmt) : Stmt.relabelAll id id ss = ss := by
  cases ss with
  | nil => rfl
  | cons s rest => simp [Stmt.relabelAll, Stmt.relabel_id s, Stmt.relabelAll_id rest]

theorem Stmt.relabelOption_id (s? : Option Stmt) : Stmt.relabelOption id id s? = s? := by
  cases s? with
  | none => rfl
  | some s => simp [Stmt.relabelOption, Stmt.relabel_id s]

end

/-! ## Parts of lists -/

theorem Expr.length_relabelAll (h : Int → Int) (g : Nat → Nat) (es : List Expr) :
    (Expr.relabelAll h g es).length = es.length := by
  induction es with
  | nil => rfl
  | cons e rest ih => simp [Expr.relabelAll, ih]

theorem Stmt.length_relabelAll (h : Int → Int) (g : Nat → Nat) (ss : List Stmt) :
    (Stmt.relabelAll h g ss).length = ss.length := by
  induction ss with
  | nil => rfl
  | cons s rest ih => simp [Stmt.relabelAll, ih]

/-! ## Trees up to their numbers -/

/-- A program without the numbers of its nodes. -/
def Program.bare (p : Program) : Program := Stmt.relabelAll id (fun _ => 0) p

theorem Program.bare_relabelAll (g : Nat → Nat) (p : Program) :
    Program.bare (Stmt.relabelAll id g p) = Program.bare p :=
  Stmt.relabelAll_relabelAll id id g (fun _ => 0) p

end Lox
