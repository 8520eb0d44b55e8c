import Lox.Proofs.Scopes.Walked

/-!
# Trees that fit the frames around them

A statement fits into frames if each of its uses at a distance has a frame there, and if a `break`, a
`continue` or a `return` has something to leave. Where variables have their values before they are
used, the frame moreover has the variable. An accepted program fits.

A variable can be used without a value in two ways: by a declaration that is skipped since it is a
branch of a conditional or the body of a loop, and by an assignment in the initializer of the variable.
In a program without either, every variable has its value before it is used.
-/

namespace Lox

set_option linter.unusedSectionVars false

/-! ## Uses with their names -/

mutual

/-- The uses of names in an expression, by their numbers. -/
def Expr.uses : Expr → List (Nat × Token)
  | .literal .. | .misplaced _ => []
  | .grouping _ inner => inner.uses
  | .unary _ _ right => right.uses
  | .binary _ left _ right => left.uses ++ right.uses
  | .logical _ left _ right => left.uses ++ right.uses
  | .step _ left _ => left.uses
  | .reference id name => [(id, name)]
  | .assignment id name value => value.uses ++ [(id, name)]
  | .call _ callee arguments _ => callee.uses ++ Expr.allUses arguments
  | .lambda _ _ _ body _ => Stmt.allUses body

/-- The uses of names in expressions. -/
def Expr.allUses : List Expr → List (Nat × Token)
  | [] => []
  | e :: rest => e.uses ++ Expr.allUses rest

/-- The uses of names in an optional expression. -/
def Expr.optionUses : Option Expr → List (Nat × Token)
  | none => []
  | some e => e.uses

/-- The uses of names in a statement, by their numbers. -/
def Stmt.uses : Stmt → List (Nat × Token)
  | .expression e => e.uses
  | .declaration _ initializer => Expr.optionUses initializer
  | .block statements => Stmt.allUses statements
  | .ifElse condition thenBranch elseBranch =>
    condition.uses ++ (thenBranch.uses ++ Stmt.optionUses elseBranch)
  | .whileLoop condition body increment =>
    condition.uses ++ (body.uses ++ Expr.optionUses increment)
  | .breakLoop _ | .continueLoop _ | .misplaced _ => []
  | .returnValue _ value => Expr.optionUses value

/-- The uses of names in statements. -/
def Stmt.allUses : List Stmt → List (Nat × Token)
  | [] => []
  | s :: rest => s.uses ++ Stmt.allUses rest

/-- The uses of names in an optional statement. -/
def Stmt.optionUses : Option Stmt → List (Nat × Token)
  | none => []
  | some s => s.uses

end

/-- The uses of names in a program, by their numbers. -/
def Program.uses (p : Program) : List (Nat × Token) := Stmt.allUses p

mutual

theorem Expr.ids_uses (e : Expr) : e.uses.map Prod.fst = e.useIds := by
  cases e with
  | literal | misplaced | reference => rfl
  | grouping _ inner | unary _ _ inner | step _ inner _ => exact Expr.ids_uses inner
  | binary _ left _ right | logical _ left _ right =>
    simp [Expr.uses, Expr.useIds, Expr.ids_uses left, Expr.ids_uses right]
  | assignment _ _ value => simp [Expr.uses, Expr.useIds, Expr.ids_uses value]
  | call _ callee arguments _ =>
    simp [Expr.uses, Expr.useIds, Expr.ids_uses callee, Expr.ids_allUses arguments]
  | lambda _ _ _ body _ => exact Stmt.ids_allUses body

theorem Expr.ids_allUses (es : List Expr) : (Expr.allUses es).map Prod.fst = Expr.allUseIds es := by
  cases es with
  | nil => rfl
  | cons e rest => simp [Expr.allUses, Expr.allUseIds, Expr.ids_uses e, Expr.ids_allUses rest]

theorem Expr.ids_optionUses (e? : Option Expr) :
    (Expr.optionUses e?).map Prod.fst = Expr.optionUseIds e? := by
  cases e? with
  | none => rfl
  | some e => exact Expr.ids_uses e

theorem Stmt.ids_uses (s : Stmt) : s.uses.map Prod.fst = s.useIds := by
  cases s with
  | expression e => exact Expr.ids_uses e
  | declaration _ initializer => exact Expr.ids_optionUses initializer
  | block statements => exact Stmt.ids_allUses statements
  | ifElse condition thenBranch elseBranch =>
    simp [Stmt.uses, Stmt.useIds, Expr.ids_uses condition, Stmt.ids_uses thenBranch,
      Stmt.ids_optionUses elseBranch]
  | whileLoop condition body increment =>
    simp [Stmt.uses, Stmt.useIds, Expr.ids_uses condition, Stmt.ids_uses body,
      Expr.ids_optionUses increment]
  | breakLoop | continueLoop | misplaced => rfl
  | returnValue _ value => exact Expr.ids_optionUses value

theorem Stmt.ids_allUses (ss : List Stmt) : (Stmt.allUses ss).map Prod.fst = Stmt.allUseIds ss := by
  cases ss with
  | nil => rfl
  | cons s rest => simp [Stmt.allUses, Stmt.allUseIds, Stmt.ids_uses s, Stmt.ids_allUses rest]

theorem Stmt.ids_optionUses (s? : Option Stmt) :
    (Stmt.optionUses s?).map Prod.fst = Stmt.optionUseIds s? := by
  cases s? with
  | none => rfl
  | some s => exact Stmt.ids_uses s

end

theorem Program.mem_useIds {p : Program} {id : Nat} {name : Token} (used : (id, name) ∈ p.uses) :
    id ∈ p.useIds := by
  have ids : p.uses.map Prod.fst = p.useIds := Stmt.ids_allUses p
  rw [← ids]
  exact List.mem_map_of_mem used

/-! ## Names of frames -/

/-- Names of the frames around a place, innermost first; those of the global frame are not told. -/
abbrev Names := List (List String)

namespace Names

/-- Adds a name to those of the innermost frame; outside of all but the global one nothing is kept. -/
def declare (name : Token) : Names → Names
  | [] => []
  | names :: outer => (name.lexeme :: names) :: outer

end Names

/-- What is taken for granted of uses. -/
structure Usage where
  /-- The distances at which they find their variables. -/
  table : Distances
  /-- The uses that there are, by their numbers. -/
  uses : Nat → Token → Prop
  /-- Whether variables have their values before they are used. -/
  definite : Prop

/-- A use is one of those that there are, and if it has a distance, there is a frame at it. -/
structure Usage.Binds (W : Usage) (known : Names) (id : Nat) (name : Token) : Prop where
  used : W.uses id name
  bound : ∀ distance, W.table[id]? = some distance →
    ∃ names, known[distance]? = some names ∧ (W.definite → name.lexeme ∈ names)

/-- What is taken for granted by another usage is so by this one. -/
structure Usage.Covers (W W' : Usage) : Prop where
  binds : ∀ {known id name}, W'.Binds known id name → W.Binds known id name
  definite : W.definite → W'.definite

/-! ## Trees that fit -/

/-- The names that are known while the initializer of a variable is evaluated. A function is called
only when the variable has it. -/
def Names.inside (known : Names) (name : Token) (e : Expr) : Names :=
  if e.isLambda then known.declare name else known

/-- The names that are known after a statement has ended normally. -/
def Stmt.learn (known : Names) : Stmt → Names
  | .declaration name _ => known.declare name
  | _ => known

/-- Outside of all scopes nothing becomes known. -/
theorem Stmt.learn_nil (s : Stmt) : s.learn [] = [] := by
  cases s <;> rfl

section
variable (W : Usage)

mutual

/-- The uses of an expression find their frames. -/
def Expr.Fits (known : Names) : Expr → Prop
  | .literal .. => True
  | .grouping _ inner => inner.Fits known
  | .unary _ _ right => right.Fits known
  | .binary _ left _ right => left.Fits known ∧ right.Fits known
  | .logical _ left _ right => left.Fits known ∧ right.Fits known
  | .step _ left _ => left.Fits known
  | .reference id name => W.Binds known id name
  | .assignment id name value => value.Fits known ∧ W.Binds known id name
  | .call _ callee arguments _ => callee.Fits known ∧ Expr.AllFits known arguments
  | .lambda _ _ params body _ => Stmt.AllFits (params.map (·.lexeme) :: known) False True body
  | .misplaced _ => False

/-- The uses of expressions find their frames. -/
def Expr.AllFits (known : Names) : List Expr → Prop
  | [] => True
  | e :: rest => e.Fits known ∧ Expr.AllFits known rest

/-- The uses of an optional expression find their frames. -/
def Expr.OptionFits (known : Names) : Option Expr → Prop
  | none => True
  | some e => e.Fits known

/-- The uses of a statement find their frames, and what leaves a loop or a function is in one. -/
def Stmt.Fits (known : Names) (inLoop inFunction : Prop) : Stmt → Prop
  | .expression e => e.Fits known
  | .declaration _ none => True
  | .declaration name (some e) => e.Fits (known.inside name e)
  | .block statements => Stmt.AllFits ([] :: known) inLoop inFunction statements
  | .ifElse condition thenBranch elseBranch =>
    condition.Fits known ∧ thenBranch.Fits known inLoop inFunction ∧
      Stmt.OptionFits known inLoop inFunction elseBranch
  | .whileLoop condition body increment =>
    condition.Fits known ∧ body.Fits known True inFunction ∧ Expr.OptionFits known increment
  | .breakLoop _ | .continueLoop _ => inLoop
  | .returnValue _ value => inFunction ∧ Expr.OptionFits known value
  | .misplaced _ => False

/-- Statements fit one after the other. -/
def Stmt.AllFits (known : Names) (inLoop inFunction : Prop) : List Stmt → Prop
  | [] => True
  | s :: rest =>
    s.Fits known inLoop inFunction ∧ Stmt.AllFits (s.learn known) inLoop inFunction rest

/-- An optional statement fits. -/
def Stmt.OptionFits (known : Names) (inLoop inFunction : Prop) : Option Stmt → Prop
  | none => True
  | some s => s.Fits known inLoop inFunction

end

end

section
variable {W W' : Usage} (covers : W'.Covers W)
include covers

mutual

theorem Expr.Fits.mono {known : Names} (e : Expr) (fits : e.Fits W known) : e.Fits W' known := by
  cases e with
  | literal => trivial
  | grouping _ inner | unary _ _ inner | step _ inner _ => exact Expr.Fits.mono inner fits
  | binary _ left _ right | logical _ left _ right =>
    exact ⟨Expr.Fits.mono left fits.1, Expr.Fits.mono right fits.2⟩
  | reference id name => exact covers.binds fits
  | assignment id name value => exact ⟨Expr.Fits.mono value fits.1, covers.binds fits.2⟩
  | call _ callee arguments _ =>
    exact ⟨Expr.Fits.mono callee fits.1, Expr.AllFits.mono arguments fits.2⟩
  | lambda _ _ _ body _ => exact Stmt.AllFits.mono body fits
  | misplaced => exact fits

theorem Expr.AllFits.mono {known : Names} (es : List Expr) (fits : Expr.AllFits W known es) :
    Expr.AllFits W' known es := by
  cases es with
  | nil => trivial
  | cons e rest => exact ⟨Expr.Fits.mono e fits.1, Expr.AllFits.mono rest fits.2⟩

theorem Expr.OptionFits.mono {known : Names} (e? : Option Expr) (fits : Expr.OptionFits W known e?) :
    Expr.OptionFits W' known e? := by
  cases e? with
  | none => trivial
  | some e => exact Expr.Fits.mono e fits

theorem Stmt.Fits.mono {known : Names} {inLoop inFunction : Prop} (s : Stmt)
    (fits : s.Fits W known inLoop inFunction) : s.Fits W' known inLoop inFunction := by
  cases s with
  | expression e => exact Expr.Fits.mono e fits
  | declaration name initializer =>
    cases initializer with
    | none => trivial
    | some e => exact Expr.Fits.mono e fits
  | block statements => exact Stmt.AllFits.mono statements fits
  | ifElse condition thenBranch elseBranch =>
    obtain ⟨test, branch, other⟩ := fits
    exact ⟨Expr.Fits.mono condition test, Stmt.Fits.mono thenBranch branch,
      Stmt.OptionFits.mono elseBranch other⟩
  | whileLoop condition body increment =>
    obtain ⟨test, round, onward⟩ := fits
    exact ⟨Expr.Fits.mono condition test, Stmt.Fits.mono body round,
      Expr.OptionFits.mono increment onward⟩
  | breakLoop | continueLoop | misplaced => exact fits
  | returnValue _ value => exact ⟨fits.1, Expr.OptionFits.mono value fits.2⟩

theorem Stmt.AllFits.mono {known : Names} {inLoop inFunction : Prop} (ss : List Stmt)
    (fits : Stmt.AllFits W known inLoop inFunction ss) :
    Stmt.AllFits W' known inLoop inFunction ss := by
  cases ss with
  | nil => trivial
  | cons s rest => exact ⟨Stmt.Fits.mono s fits.1, Stmt.AllFits.mono rest fits.2⟩

theorem Stmt.OptionFits.mono {known : Names} {inLoop inFunction : Prop} (s? : Option Stmt)
    (fits : Stmt.OptionFits W known inLoop inFunction s?) :
    Stmt.OptionFits W' known inLoop inFunction s? := by
  cases s? with
  | none => trivial
  | some s => exact Stmt.Fits.mono s fits

end

end

/-- Outside of all scopes, statements that fit one after the other fit in both parts. -/
theorem Stmt.AllFits.parts {W : Usage} {inLoop inFunction : Prop} {ss ss' : List Stmt}
    (fits : Stmt.AllFits W [] inLoop inFunction (ss ++ ss')) :
    Stmt.AllFits W [] inLoop inFunction ss ∧ Stmt.AllFits W [] inLoop inFunction ss' := by
  induction ss with
  | nil => exact ⟨trivial, fits⟩
  | cons s rest ih =>
    obtain ⟨first, others⟩ := fits
    rw [Stmt.learn_nil] at others
    obtain ⟨before, after⟩ := ih others
    refine ⟨⟨first, ?_⟩, after⟩
    rw [Stmt.learn_nil]
    exact before

/-! ## Programs in which variables have their values -/

/-- A statement that is not a declaration. -/
def Stmt.IsPlain : Stmt → Prop
  | .declaration .. => False
  | _ => True

section
variable (T : Distances)

mutual

/-- No assignment in an expression is bound to a pending variable: one whose initializer the place is
in. Nor is there one in any initializer inside of the expression, and declarations stand in order. -/
def Expr.Orderly (pending : Names) : Expr → Prop
  | .literal .. | .reference .. | .misplaced _ => True
  | .grouping _ inner => inner.Orderly pending
  | .unary _ _ right => right.Orderly pending
  | .binary _ left _ right => left.Orderly pending ∧ right.Orderly pending
  | .logical _ left _ right => left.Orderly pending ∧ right.Orderly pending
  | .step _ left _ => left.Orderly pending
  | .assignment id name value =>
    value.Orderly pending ∧ ∀ names ∈ T[id]?.bind (pending[·]?), name.lexeme ∉ names
  | .call _ callee arguments _ => callee.Orderly pending ∧ Expr.AllOrderly pending arguments
  | .lambda _ _ _ body _ => Stmt.AllOrderly ([] :: pending) body

/-- Expressions are orderly. -/
def Expr.AllOrderly (pending : Names) : List Expr → Prop
  | [] => True
  | e :: rest => e.Orderly pending ∧ Expr.AllOrderly pending rest

/-- An optional expression is orderly. -/
def Expr.OptionOrderly (pending : Names) : Option Expr → Prop
  | none => True
  | some e => e.Orderly pending

/-- No declaration is a branch of a conditional or the body of a loop, and no assignment in an
initializer that is no function is bound to the variable that is declared. -/
def Stmt.Orderly (pending : Names) : Stmt → Prop
  | .expression e => e.Orderly pending
  | .declaration _ none => True
  | .declaration name (some e) =>
    e.Orderly (if e.isLambda then pending else pending.declare name)
  | .block statements => Stmt.AllOrderly ([] :: pending) statements
  | .ifElse condition thenBranch elseBranch =>
    condition.Orderly pending ∧ (thenBranch.IsPlain ∧ thenBranch.Orderly pending) ∧
      Stmt.OptionOrderly pending elseBranch
  | .whileLoop condition body increment =>
    condition.Orderly pending ∧ (body.IsPlain ∧ body.Orderly pending) ∧
      Expr.OptionOrderly pending increment
  | .breakLoop _ | .continueLoop _ | .misplaced _ => True
  | .returnValue _ value => Expr.OptionOrderly pending value

/-- Statements are orderly. -/
def Stmt.AllOrderly (pending : Names) : List Stmt → Prop
  | [] => True
  | s :: rest => s.Orderly pending ∧ Stmt.AllOrderly pending rest

/-- An optional branch is orderly. -/
def Stmt.OptionOrderly (pending : Names) : Option Stmt → Prop
  | none => True
  | some s => s.IsPlain ∧ s.Orderly pending

end

end

/-! ### Telling whether a program is orderly -/

instance Stmt.decidableIsPlain (s : Stmt) : Decidable s.IsPlain := by
  cases s <;> first | exact .isTrue trivial | exact .isFalse not_false

section
variable (T : Distances)

mutual

instance Expr.decidableOrderly (pending : Names) : (e : Expr) → Decidable (e.Orderly T pending)
  | .literal .. | .reference .. | .misplaced _ => .isTrue trivial
  | .grouping _ inner => inner.decidableOrderly pending
  | .unary _ _ right => right.decidableOrderly pending
  | .binary _ left _ right =>
    @instDecidableAnd _ _ (left.decidableOrderly pending) (right.decidableOrderly pending)
  | .logical _ left _ right =>
    @instDecidableAnd _ _ (left.decidableOrderly pending) (right.decidableOrderly pending)
  | .step _ left _ => left.decidableOrderly pending
  | .assignment _ _ value => @instDecidableAnd _ _ (value.decidableOrderly pending) inferInstance
  | .call _ callee arguments _ =>
    @instDecidableAnd _ _ (callee.decidableOrderly pending)
      (Expr.decidableAllOrderly pending arguments)
  | .lambda _ _ _ body _ => Stmt.decidableAllOrderly ([] :: pending) body

instance Expr.decidableAllOrderly (pending : Names) :
    (es : List Expr) → Decidable (Expr.AllOrderly T pending es)
  | [] => .isTrue trivial
  | e :: rest =>
    @instDecidableAnd _ _ (e.decidableOrderly pending) (Expr.decidableAllOrderly pending rest)

instance Expr.decidableOptionOrderly (pending : Names) :
    (e? : Option Expr) → Decidable (Expr.OptionOrderly T pending e?)
  | none => .isTrue trivial
  | some e => e.decidableOrderly pending

instance Stmt.decidableOrderly (pending : Names) : (s : Stmt) → Decidable (s.Orderly T pending)
  | .expression e => e.decidableOrderly pending
  | .declaration _ none => .isTrue trivial
  | .declaration name (some e) =>
    e.decidableOrderly (if e.isLambda then pending else pending.declare name)
  | .block statements => Stmt.decidableAllOrderly ([] :: pending) statements
  | .ifElse condition thenBranch elseBranch =>
    @instDecidableAnd _ _ (condition.decidableOrderly pending) <|
      @instDecidableAnd _ _ (@instDecidableAnd _ _ _ (thenBranch.decidableOrderly pending))
        (Stmt.decidableOptionOrderly pending elseBranch)
  | .whileLoop condition body increment =>
    @instDecidableAnd _ _ (condition.decidableOrderly pending) <|
      @instDecidableAnd _ _ (@instDecidableAnd _ _ _ (body.decidableOrderly pending))
        (Expr.decidableOptionOrderly pending increment)
  | .breakLoop _ | .continueLoop _ | .misplaced _ => .isTrue trivial
  | .returnValue _ value => Expr.decidableOptionOrderly pending value

instance Stmt.decidableAllOrderly (pending : Names) :
    (ss : List Stmt) → Decidable (Stmt.AllOrderly T pending ss)
  | [] => .isTrue trivial
  | s :: rest =>
    @instDecidableAnd _ _ (s.decidableOrderly pending) (Stmt.decidableAllOrderly pending rest)

instance Stmt.decidableOptionOrderly (pending : Names) :
    (s? : Option Stmt) → Decidable (Stmt.OptionOrderly T pending s?)
  | none => .isTrue trivial
  | some s => @instDecidableAnd _ _ _ (s.decidableOrderly pending)

end

end

/-- A program in which no declaration is a branch of a conditional or the body of a loop, and no
assignment in an initializer that is no function is bound to the local variable that is declared. -/
def Program.Orderly (p : Program) : Prop := Stmt.AllOrderly p.distances [] p

instance (p : Program) : Decidable p.Orderly := Stmt.decidableAllOrderly p.distances [] p

end Lox
