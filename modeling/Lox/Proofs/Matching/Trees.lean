import Lox.Proofs.Trees.Relabel
import Lox.Proofs.Trees.Uses

/-!
# Trees that match

Two trees match that are the same but for the numbers of their nodes. The one may also assign variables
where the other counts them up or down.
-/

namespace Lox

/-- The sign of a sum or of a difference with one, in the place of an operator that counts a variable
up or down. -/
def Token.sign (operator : Token) : Token :=
  if operator.kind = .plusPlus then ⟨.plus, "+", .nil, operator.line⟩
  else ⟨.minus, "-", .nil, operator.line⟩

/-- The assignment in parentheses that counts a variable up or down. The numbers are those of its
nodes, outermost first and from left to right. -/
def Expr.counting (group target sum source one : Nat) (name operator : Token) : Expr :=
  .grouping group (.assignment target name
    (.binary sum (.reference source name) operator.sign (.literal one (.num 1.0))))

section
variable (respells : Prop) (uses : Nat → Nat → Prop)

mutual

/-- An expression matches another one: the numbers of their uses correspond. -/
inductive Expr.Matches : Expr → Expr → Prop
  | literal (id id' : Nat) (value : Literal) :
      Expr.Matches (.literal id value) (.literal id' value)
  | grouping (id id' : Nat) {e e' : Expr} (inner : Expr.Matches e e') :
      Expr.Matches (.grouping id e) (.grouping id' e')
  | unary (id id' : Nat) (operator : Token) {e e' : Expr} (right : Expr.Matches e e') :
      Expr.Matches (.unary id operator e) (.unary id' operator e')
  | binary (id id' : Nat) (operator : Token) {e e' f f' : Expr} (left : Expr.Matches e e')
      (right : Expr.Matches f f') :
      Expr.Matches (.binary id e operator f) (.binary id' e' operator f')
  | logical (id id' : Nat) (operator : Token) {e e' f f' : Expr} (left : Expr.Matches e e')
      (right : Expr.Matches f f') :
      Expr.Matches (.logical id e operator f) (.logical id' e' operator f')
  | step (id id' : Nat) (operator : Token) {e e' : Expr} (left : Expr.Matches e e') :
      Expr.Matches (.step id e operator) (.step id' e' operator)
  /-- A variable is assigned that was counted up or down. -/
  | respelt (allowed : respells) (id group sum one : Nat) {use target source : Nat}
      (name operator : Token) (written : uses use target) (read : uses use source) :
      Expr.Matches (.step id (.reference use name) operator)
        (.counting group target sum source one name operator)
  | reference {id id' : Nat} (name : Token) (use : uses id id') :
      Expr.Matches (.reference id name) (.reference id' name)
  | assignment {id id' : Nat} (name : Token) {e e' : Expr} (value : Expr.Matches e e')
      (use : uses id id') : Expr.Matches (.assignment id name e) (.assignment id' name e')
  | call (id id' : Nat) (paren : Token) {e e' : Expr} {es es' : List Expr}
      (callee : Expr.Matches e e') (arguments : Expr.AllMatches es es') :
      Expr.Matches (.call id e es paren) (.call id' e' es' paren)
  | lambda (id id' : Nat) (keyword : Token) (params : List Token) (name : Option Token)
      {body body' : List Stmt} (statements : Stmt.AllMatches body body') :
      Expr.Matches (.lambda id keyword params body name) (.lambda id' keyword params body' name)
  | misplaced (kind : NodeKind) : Expr.Matches (.misplaced kind) (.misplaced kind)

/-- Expressions match others, each its own. -/
inductive Expr.AllMatches : List Expr → List Expr → Prop
  | nil : Expr.AllMatches [] []
  | cons {e e' : Expr} {es es' : List Expr} (head : Expr.Matches e e')
      (tail : Expr.AllMatches es es') : Expr.AllMatches (e :: es) (e' :: es')

/-- An optional expression matches another one. -/
inductive Expr.OptionMatches : Option Expr → Option Expr → Prop
  | none : Expr.OptionMatches none none
  | some {e e' : Expr} (value : Expr.Matches e e') : Expr.OptionMatches (some e) (some e')

/-- A statement matches another one. -/
inductive Stmt.Matches : Stmt → Stmt → Prop
  | expression {e e' : Expr} (value : Expr.Matches e e') :
      Stmt.Matches (.expression e) (.expression e')
  | declaration (name : Token) {e e' : Option Expr} (initializer : Expr.OptionMatches e e') :
      Stmt.Matches (.declaration name e) (.declaration name e')
  | block {ss ss' : List Stmt} (statements : Stmt.AllMatches ss ss') :
      Stmt.Matches (.block ss) (.block ss')
  | ifElse {e e' : Expr} {s s' : Stmt} {t t' : Option Stmt} (condition : Expr.Matches e e')
      (thenBranch : Stmt.Matches s s') (elseBranch : Stmt.OptionMatches t t') :
      Stmt.Matches (.ifElse e s t) (.ifElse e' s' t')
  | whileLoop {e e' : Expr} {s s' : Stmt} {f f' : Option Expr} (condition : Expr.Matches e e')
      (body : Stmt.Matches s s') (increment : Expr.OptionMatches f f') :
      Stmt.Matches (.whileLoop e s f) (.whileLoop e' s' f')
  | breakLoop (keyword : Token) : Stmt.Matches (.breakLoop keyword) (.breakLoop keyword)
  | continueLoop (keyword : Token) : Stmt.Matches (.continueLoop keyword) (.continueLoop keyword)
  | returnValue (keyword : Token) {e e' : Option Expr} (value : Expr.OptionMatches e e') :
      Stmt.Matches (.returnValue keyword e) (.returnValue keyword e')
  | misplaced (kind : NodeKind) : Stmt.Matches (.misplaced kind) (.misplaced kind)

/-- Statements match others, each its own. -/
inductive Stmt.AllMatches : List Stmt → List Stmt → Prop
  | nil : Stmt.AllMatches [] []
  | cons {s s' : Stmt} {ss ss' : List Stmt} (head : Stmt.Matches s s')
      (tail : Stmt.AllMatches ss ss') : Stmt.AllMatches (s :: ss) (s' :: ss')

/-- An optional statement matches another one. -/
inductive Stmt.OptionMatches : Option Stmt → Option Stmt → Prop
  | none : Stmt.OptionMatches none none
  | some {s s' : Stmt} (branch : Stmt.Matches s s') : Stmt.OptionMatches (some s) (some s')

end

end

/-! ## Trees with other numbers -/

section
variable {respells : Prop} {uses : Nat → Nat → Prop} {numbers : Nat → Nat}

mutual

/-- A tree matches itself with other numbers, if those of its uses correspond. -/
theorem Expr.matches_relabel (e : Expr) (each : ∀ i ∈ e.useIds, uses i (numbers i)) :
    e.Matches respells uses (e.relabel id numbers) := by
  cases e with
  | literal i value => exact .literal i _ value
  | grouping i inner => exact .grouping i _ (inner.matches_relabel each)
  | unary i operator right => exact .unary i _ operator (right.matches_relabel each)
  | binary i left operator right =>
    obtain ⟨eachLeft, eachRight⟩ := List.forall_mem_append.1 each
    exact .binary i _ operator (left.matches_relabel eachLeft) (right.matches_relabel eachRight)
  | logical i left operator right =>
    obtain ⟨eachLeft, eachRight⟩ := List.forall_mem_append.1 each
    exact .logical i _ operator (left.matches_relabel eachLeft) (right.matches_relabel eachRight)
  | step i left operator => exact .step i _ operator (left.matches_relabel each)
  | reference i name => exact .reference name (each i (List.mem_singleton_self i))
  | assignment i name value =>
    obtain ⟨eachValue, here⟩ := List.forall_mem_append.1 each
    exact .assignment name (value.matches_relabel eachValue) (here i (List.mem_singleton_self i))
  | call i callee arguments paren =>
    obtain ⟨eachCallee, eachArgument⟩ := List.forall_mem_append.1 each
    exact .call i _ paren (callee.matches_relabel eachCallee)
      (Expr.allMatches_relabel arguments eachArgument)
  | lambda i keyword params body name =>
    have statements : Stmt.AllMatches respells uses body (Stmt.relabelAll id numbers body) :=
      Stmt.allMatches_relabel body each
    simp only [Expr.relabel, Token.relabel, id_eq, List.map_id_fun', Option.map_id_fun']
    exact .lambda i _ keyword params name statements
  | misplaced kind => exact .misplaced kind

theorem Expr.allMatches_relabel (es : List Expr) (each : ∀ i ∈ Expr.allUseIds es, uses i (numbers i)) :
    Expr.AllMatches respells uses es (Expr.relabelAll id numbers es) := by
  cases es with
  | nil => exact .nil
  | cons e rest =>
    obtain ⟨eachHead, eachTail⟩ := List.forall_mem_append.1 each
    exact .cons (e.matches_relabel eachHead) (Expr.allMatches_relabel rest eachTail)

theorem Expr.optionMatches_relabel (e? : Option Expr)
    (each : ∀ i ∈ Expr.optionUseIds e?, uses i (numbers i)) :
    Expr.OptionMatches respells uses e? (Expr.relabelOption id numbers e?) := by
  cases e? with
  | none => exact .none
  | some e => exact .some (e.matches_relabel each)

theorem Stmt.matches_relabel (s : Stmt) (each : ∀ i ∈ s.useIds, uses i (numbers i)) :
    s.Matches respells uses (s.relabel id numbers) := by
  cases s with
  | expression e => exact .expression (e.matches_relabel each)
  | declaration name initializer =>
    exact .declaration name (Expr.optionMatches_relabel initializer each)
  | block statements => exact .block (Stmt.allMatches_relabel statements each)
  | ifElse condition thenBranch elseBranch =>
    obtain ⟨eachCondition, branches⟩ := List.forall_mem_append.1 each
    obtain ⟨eachThen, eachElse⟩ := List.forall_mem_append.1 branches
    exact .ifElse (condition.matches_relabel eachCondition) (thenBranch.matches_relabel eachThen)
      (Stmt.optionMatches_relabel elseBranch eachElse)
  | whileLoop condition body increment =>
    obtain ⟨eachCondition, rounds⟩ := List.forall_mem_append.1 each
    obtain ⟨eachBody, eachIncrement⟩ := List.forall_mem_append.1 rounds
    exact .whileLoop (condition.matches_relabel eachCondition) (body.matches_relabel eachBody)
      (Expr.optionMatches_relabel increment eachIncrement)
  | breakLoop keyword => exact .breakLoop keyword
  | continueLoop keyword => exact .continueLoop keyword
  | returnValue keyword value => exact .returnValue keyword (Expr.optionMatches_relabel value each)
  | misplaced kind => exact .misplaced kind

theorem Stmt.allMatches_relabel (ss : List Stmt) (each : ∀ i ∈ Stmt.allUseIds ss, uses i (numbers i)) :
    Stmt.AllMatches respells uses ss (Stmt.relabelAll id numbers ss) := by
  cases ss with
  | nil => exact .nil
  | cons s rest =>
    obtain ⟨eachHead, eachTail⟩ := List.forall_mem_append.1 each
    exact .cons (s.matches_relabel eachHead) (Stmt.allMatches_relabel rest eachTail)

theorem Stmt.optionMatches_relabel (s? : Option Stmt)
    (each : ∀ i ∈ Stmt.optionUseIds s?, uses i (numbers i)) :
    Stmt.OptionMatches respells uses s? (Stmt.relabelOption id numbers s?) := by
  cases s? with
  | none => exact .none
  | some s => exact .some (s.matches_relabel each)

end

end

end Lox
