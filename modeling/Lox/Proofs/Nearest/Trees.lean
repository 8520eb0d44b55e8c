import Lox.Proofs.Safety.Trees

/-!
# Programs that declare names before they use them

A name that a block or a function declares may be used inside of it before that, and then it means a
variable farther out. In a program that declares names first there is no such use: each use inside of a
block or a function, however deep, comes after the first declaration of its name there, if there is one.
-/

namespace Lox

/-! ## Names that are declared -/

/-- The name that a statement declares. -/
def Stmt.declares : Stmt → List String
  | .declaration name _ => [name.lexeme]
  | _ => []

/-- The names that statements declare themselves, not in blocks and functions inside of them. -/
def Stmt.allDeclare (ss : List Stmt) : List String := ss.flatMap Stmt.declares

/-- The name that counts as declared already inside of a statement: that of a function. -/
def Stmt.declaredInside : Stmt → List String
  | .declaration name (some e) => if e.isLambda then [name.lexeme] else []
  | _ => []

/-! ## Trees that declare names first -/

mutual

/-- The functions in an expression declare names first. -/
def Expr.DeclaredFirst : Expr → Prop
  | .literal .. | .reference .. | .misplaced _ => True
  | .grouping _ inner => inner.DeclaredFirst
  | .unary _ _ right => right.DeclaredFirst
  | .binary _ left _ right => left.DeclaredFirst ∧ right.DeclaredFirst
  | .logical _ left _ right => left.DeclaredFirst ∧ right.DeclaredFirst
  | .step _ left _ => left.DeclaredFirst
  | .assignment _ _ value => value.DeclaredFirst
  | .call _ callee arguments _ => callee.DeclaredFirst ∧ Expr.AllDeclaredFirst arguments
  | .lambda _ _ params body _ => Stmt.AllDeclaredFirst (params.map (·.lexeme)) body

/-- The functions in expressions declare names first. -/
def Expr.AllDeclaredFirst : List Expr → Prop
  | [] => True
  | e :: rest => e.DeclaredFirst ∧ Expr.AllDeclaredFirst rest

/-- The functions in an optional expression declare names first. -/
def Expr.OptionDeclaredFirst : Option Expr → Prop
  | none => True
  | some e => e.DeclaredFirst

/-- The blocks and functions in a statement declare names first, and no declaration is a branch of a
conditional or the body of a loop. -/
def Stmt.DeclaredFirst : Stmt → Prop
  | .expression e => e.DeclaredFirst
  | .declaration _ initializer => Expr.OptionDeclaredFirst initializer
  | .block statements => Stmt.AllDeclaredFirst [] statements
  | .ifElse condition thenBranch elseBranch =>
    condition.DeclaredFirst ∧ (thenBranch.IsPlain ∧ thenBranch.DeclaredFirst) ∧
      Stmt.OptionDeclaredFirst elseBranch
  | .whileLoop condition body increment =>
    condition.DeclaredFirst ∧ (body.IsPlain ∧ body.DeclaredFirst) ∧
      Expr.OptionDeclaredFirst increment
  | .breakLoop _ | .continueLoop _ | .misplaced _ => True
  | .returnValue _ value => Expr.OptionDeclaredFirst value

/-- The statements of a block or a function declare names first: a name that is used in one of them, and
is declared by it or after it, has been declared before. The names declared before the statements are
given. -/
def Stmt.AllDeclaredFirst (before : List String) : List Stmt → Prop
  | [] => True
  | s :: rest =>
    (∀ use ∈ s.uses, use.2.lexeme ∈ Stmt.allDeclare (s :: rest) →
      use.2.lexeme ∈ s.declaredInside ++ before) ∧
    s.DeclaredFirst ∧ Stmt.AllDeclaredFirst (s.declares ++ before) rest

/-- The blocks and functions in an optional branch declare names first. -/
def Stmt.OptionDeclaredFirst : Option Stmt → Prop
  | none => True
  | some s => s.IsPlain ∧ s.DeclaredFirst

end

/-- A program in which no declaration is a branch of a conditional or the body of a loop, and in which
every use of a name comes after the first declaration of the name in each block and each function around
the use that declares it. The initializer of a variable comes before its declaration, unless it is a
function. Global variables can be used before they are declared. -/
def Program.DeclaredFirst (p : Program) : Prop := ∀ s ∈ p, s.DeclaredFirst

/-! ### Telling whether names are declared first -/

mutual

instance Expr.decidableDeclaredFirst : (e : Expr) → Decidable e.DeclaredFirst
  | .literal .. | .reference .. | .misplaced _ => .isTrue trivial
  | .grouping _ inner => inner.decidableDeclaredFirst
  | .unary _ _ right => right.decidableDeclaredFirst
  | .binary _ left _ right =>
    @instDecidableAnd _ _ left.decidableDeclaredFirst right.decidableDeclaredFirst
  | .logical _ left _ right =>
    @instDecidableAnd _ _ left.decidableDeclaredFirst right.decidableDeclaredFirst
  | .step _ left _ => left.decidableDeclaredFirst
  | .assignment _ _ value => value.decidableDeclaredFirst
  | .call _ callee arguments _ =>
    @instDecidableAnd _ _ callee.decidableDeclaredFirst (Expr.decidableAllDeclaredFirst arguments)
  | .lambda _ _ params body _ => Stmt.decidableAllDeclaredFirst (params.map Token.lexeme) body

instance Expr.decidableAllDeclaredFirst : (es : List Expr) → Decidable (Expr.AllDeclaredFirst es)
  | [] => .isTrue trivial
  | e :: rest =>
    @instDecidableAnd _ _ e.decidableDeclaredFirst (Expr.decidableAllDeclaredFirst rest)

instance Expr.decidableOptionDeclaredFirst :
    (e? : Option Expr) → Decidable (Expr.OptionDeclaredFirst e?)
  | none => .isTrue trivial
  | some e => e.decidableDeclaredFirst

instance Stmt.decidableDeclaredFirst : (s : Stmt) → Decidable s.DeclaredFirst
  | .expression e => e.decidableDeclaredFirst
  | .declaration _ initializer => Expr.decidableOptionDeclaredFirst initializer
  | .block statements => Stmt.decidableAllDeclaredFirst [] statements
  | .ifElse condition thenBranch elseBranch =>
    @instDecidableAnd _ _ condition.decidableDeclaredFirst <|
      @instDecidableAnd _ _ (@instDecidableAnd _ _ _ thenBranch.decidableDeclaredFirst)
        (Stmt.decidableOptionDeclaredFirst elseBranch)
  | .whileLoop condition body increment =>
    @instDecidableAnd _ _ condition.decidableDeclaredFirst <|
      @instDecidableAnd _ _ (@instDecidableAnd _ _ _ body.decidableDeclaredFirst)
        (Expr.decidableOptionDeclaredFirst increment)
  | .breakLoop _ | .continueLoop _ | .misplaced _ => .isTrue trivial
  | .returnValue _ value => Expr.decidableOptionDeclaredFirst value

instance Stmt.decidableAllDeclaredFirst (before : List String) :
    (ss : List Stmt) → Decidable (Stmt.AllDeclaredFirst before ss)
  | [] => .isTrue trivial
  | s :: rest =>
    @instDecidableAnd _ _ inferInstance <|
      @instDecidableAnd _ _ s.decidableDeclaredFirst
        (Stmt.decidableAllDeclaredFirst (s.declares ++ before) rest)

instance Stmt.decidableOptionDeclaredFirst :
    (s? : Option Stmt) → Decidable (Stmt.OptionDeclaredFirst s?)
  | none => .isTrue trivial
  | some s => @instDecidableAnd _ _ _ s.decidableDeclaredFirst

end

instance (p : Program) : Decidable p.DeclaredFirst := by
  unfold Program.DeclaredFirst
  infer_instance

end Lox
