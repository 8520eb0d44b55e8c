import Mathlib.Data.List.Infix
import Lox.Proofs.Scopes.Walk
import Lox.Proofs.Trees.Uses

/-!
# What a program mentions, and where

The declarations, uses and jumps of a program in the order of a walk, each with everything it stands
inside of. Blocks and functions are told from each other by their positions in the tree. In these
terms it is said without any walk which scope a name is declared in, and which mentions are against
the rules.
-/

namespace Lox

/-- A position in a tree, the last step first: `0` goes to the first part of a node or a list, `1`
to the other parts. -/
abbrev Position := List Nat

/-- What a part of a program can stand inside of. -/
inductive Enclosure
  | block (place : Position)
  /-- A function; its parameters are in the same scope as its body. -/
  | function (place : Position)
  | loopBody
  /-- The initializer of a declaration, which may be a function itself. -/
  | initializer (name : String) (isFunction : Bool)
  deriving DecidableEq

/-- The scope of a block or a function, which is told by its position. -/
def Enclosure.scope? : Enclosure → Option Position
  | block place | function place => some place
  | _ => none

/-- The scopes among enclosures, innermost first. -/
def scopesOf (around : List Enclosure) : List Position := around.filterMap Enclosure.scope?

/-- What a walk meets. -/
inductive Mentioned
  | declaration (name : Token)
  | use (id : Nat) (form : UseForm) (name : Token)
  /-- A `break` or a `continue`. -/
  | jump (keyword : Token)
  | returning (keyword : Token)
  /-- A node that does not belong where it is. -/
  | misplaced (kind : NodeKind)

/-- What a walk meets, and what it stands inside of, innermost first. -/
structure Mention where
  what : Mentioned
  around : List Enclosure

mutual

/-- What an expression mentions. -/
def Expr.mentions (place : Position) (around : List Enclosure) : Expr → List Mention
  | .literal .. => []
  | .grouping _ inner => inner.mentions (0 :: place) around
  | .unary _ _ right => right.mentions (0 :: place) around
  | .binary _ left _ right =>
    left.mentions (0 :: place) around ++ right.mentions (1 :: place) around
  | .logical _ left _ right =>
    left.mentions (0 :: place) around ++ right.mentions (1 :: place) around
  | .step _ left _ => left.mentions (0 :: place) around
  | .reference id name => [⟨.use id .reference name, around⟩]
  | .assignment id name value =>
    value.mentions (0 :: place) around ++ [⟨.use id .assignment name, around⟩]
  | .call _ callee arguments _ =>
    callee.mentions (0 :: place) around ++ Expr.allMentions (1 :: place) around arguments
  | .lambda _ _ params body _ =>
    params.map (fun name => ⟨.declaration name, .function place :: around⟩) ++
      Stmt.allMentions (0 :: place) (.function place :: around) body
  | .misplaced kind => [⟨.misplaced kind, around⟩]

/-- What expressions mention. -/
def Expr.allMentions (place : Position) (around : List Enclosure) : List Expr → List Mention
  | [] => []
  | e :: rest => e.mentions (0 :: place) around ++ Expr.allMentions (1 :: place) around rest

/-- What an optional expression mentions. -/
def Expr.optionMentions (place : Position) (around : List Enclosure) : Option Expr → List Mention
  | none => []
  | some e => e.mentions place around

/-- What a statement mentions: a declaration before its initializer, the increment of a loop after
its body. -/
def Stmt.mentions (place : Position) (around : List Enclosure) : Stmt → List Mention
  | .expression e => e.mentions (0 :: place) around
  | .declaration name none => [⟨.declaration name, around⟩]
  | .declaration name (some e) => ⟨.declaration name, around⟩ ::
      e.mentions (0 :: place) (.initializer name.lexeme e.isLambda :: around)
  | .block statements => Stmt.allMentions (0 :: place) (.block place :: around) statements
  | .ifElse condition thenBranch elseBranch =>
    condition.mentions (0 :: place) around ++ (thenBranch.mentions (0 :: 1 :: place) around ++
      Stmt.optionMentions (1 :: 1 :: place) around elseBranch)
  | .whileLoop condition body increment =>
    condition.mentions (0 :: place) around ++
      (body.mentions (0 :: 1 :: place) (.loopBody :: around) ++
        Expr.optionMentions (1 :: 1 :: place) around increment)
  | .breakLoop keyword => [⟨.jump keyword, around⟩]
  | .continueLoop keyword => [⟨.jump keyword, around⟩]
  | .returnValue keyword value =>
    ⟨.returning keyword, around⟩ :: Expr.optionMentions (0 :: place) around value
  | .misplaced kind => [⟨.misplaced kind, around⟩]

/-- What statements mention. -/
def Stmt.allMentions (place : Position) (around : List Enclosure) : List Stmt → List Mention
  | [] => []
  | s :: rest => s.mentions (0 :: place) around ++ Stmt.allMentions (1 :: place) around rest

/-- What an optional statement mentions. -/
def Stmt.optionMentions (place : Position) (around : List Enclosure) : Option Stmt → List Mention
  | none => []
  | some s => s.mentions place around

end

/-- What a program mentions. -/
def Program.mentions (p : Program) : List Mention := Stmt.allMentions [] [] p

/-! ## Declarations in scopes -/

/-- A mention is a declaration of the name that belongs directly to the scope. -/
def Mention.Declares (m : Mention) (name : String) (scope : Position) : Prop :=
  ∃ token, m.what = .declaration token ∧ token.lexeme = name ∧
    (scopesOf m.around).head? = some scope

/-- Some mention declares the name in the scope. -/
def Declared (before : List Mention) (name : String) (scope : Position) : Prop :=
  ∃ m ∈ before, m.Declares name scope

/-- Of the scopes around a place, the one at the distance is the first in which the name was
declared before. -/
def Nearest (before : List Mention) (around : List Enclosure) (name : String) (distance : Nat) :
    Prop :=
  ∃ nearer scope farther, scopesOf around = nearer ++ scope :: farther ∧
    nearer.length = distance ∧ Declared before name scope ∧
    ∀ other ∈ nearer, ¬ Declared before name other

/-! ## Mentions against the rules -/

/-- A place is in the body of a loop, and in no function that is inside of that loop. -/
def InLoop (around : List Enclosure) : Prop :=
  ∃ inner outer, around = inner ++ .loopBody :: outer ∧ ∀ place, .function place ∉ inner

def InFunction (around : List Enclosure) : Prop := ∃ place, .function place ∈ around

/-- A mention after others is refused for the reason given. -/
inductive Mention.Offends (before : List Mention) : Mention → ResolutionError → Prop
  | jump {keyword : Token} {around : List Enclosure} (outside : ¬ InLoop around) :
      Offends before ⟨.jump keyword, around⟩ ⟨.noLoop keyword.lexeme, keyword.line⟩
  | returning {keyword : Token} {around : List Enclosure} (outside : ¬ InFunction around) :
      Offends before ⟨.returning keyword, around⟩ ⟨.noFunction, keyword.line⟩
  /-- The variable is read in the initializer of its own declaration, which belongs to a scope and
  is no function, and no scope inside of that one has declared the name before. -/
  | ownInitializer {id : Nat} {name : Token} {inner outer : List Enclosure}
      (belongs : scopesOf outer ≠ [])
      (notHidden : ∀ scope ∈ scopesOf inner, ¬ Declared before name.lexeme scope) :
      Offends before ⟨.use id .reference name, inner ++ .initializer name.lexeme false :: outer⟩
        ⟨.ownInitializer name.lexeme, name.line⟩

/-- A mention after others is against the rules. -/
def Offence (ms before : List Mention) (e : ResolutionError) : Prop :=
  ∃ m after, ms = before ++ m :: after ∧ m.Offends before e

/-- The error is that of the first mention against the rules. -/
def FirstOffence (ms : List Mention) (e : ResolutionError) : Prop :=
  ∃ before, Offence ms before e ∧
    ∀ before' e', before'.length < before.length → ¬ Offence ms before' e'

/-! ## Where things stand -/

theorem scopesOf_append (inner outer : List Enclosure) :
    scopesOf (inner ++ outer) = scopesOf inner ++ scopesOf outer := List.filterMap_append

theorem scopesOf_cons_scope {e : Enclosure} {place : Position} (isScope : e.scope? = some place)
    (around : List Enclosure) : scopesOf (e :: around) = place :: scopesOf around :=
  List.filterMap_cons_some isScope

theorem scopesOf_cons_other {e : Enclosure} (noScope : e.scope? = none) (around : List Enclosure) :
    scopesOf (e :: around) = scopesOf around := List.filterMap_cons_none noScope

theorem inLoop_cons {e : Enclosure} {around : List Enclosure} :
    InLoop (e :: around) ↔ e = .loopBody ∨ (∀ place, e ≠ .function place) ∧ InLoop around := by
  constructor
  · rintro ⟨inner, outer, split, noFunction⟩
    cases inner with
    | nil =>
      cases split
      exact .inl rfl
    | cons e' inner =>
      cases split
      refine .inr ⟨fun place same => noFunction place (by simp [same]), inner, outer, rfl, ?_⟩
      exact fun place member => noFunction place (List.mem_cons_of_mem _ member)
  · rintro (rfl | ⟨notFunction, inner, outer, rfl, noFunction⟩)
    · exact ⟨[], around, rfl, by simp⟩
    · refine ⟨e :: inner, outer, rfl, fun place member => ?_⟩
      rcases List.mem_cons.1 member with same | member
      · exact notFunction place same.symm
      · exact noFunction place member

theorem inFunction_cons {e : Enclosure} {around : List Enclosure} :
    InFunction (e :: around) ↔ (∃ place, e = .function place) ∨ InFunction around := by
  simp only [InFunction, List.mem_cons, exists_or, eq_comm]

theorem declared_append {before ms : List Mention} {name : String} {scope : Position} :
    Declared (before ++ ms) name scope ↔ Declared before name scope ∨ Declared ms name scope := by
  simp only [Declared, List.mem_append, or_and_right, exists_or]

theorem not_declared_nil {name : String} {scope : Position} : ¬ Declared [] name scope := by
  simp [Declared]

def Mentioned.isDeclaration : Mentioned → Bool
  | declaration _ => true
  | _ => false

/-- What is no declaration declares no name. -/
theorem not_declared_other {m : Mention} (isOther : m.what.isDeclaration = false) {name : String}
    {scope : Position} : ¬ Declared [m] name scope := by
  rintro ⟨m', member, token, isDeclaration, _⟩
  rw [List.mem_singleton.1 member] at isDeclaration
  rw [isDeclaration] at isOther
  cases isOther

/-- The scopes that names are declared in begin at the position, or there is a scope around it that
they are declared in directly. -/
def DeclareFrom (place : Position) (own : Option Position) (ms : List Mention) : Prop :=
  ∀ name scope, Declared ms name scope → place <:+ scope ∨ own = some scope

namespace DeclareFrom

variable {place : Position} {own : Option Position} {ms ms' : List Mention}

theorem nil (place : Position) (own : Option Position) : DeclareFrom place own [] :=
  fun _ _ declared => absurd declared not_declared_nil

theorem append (first : DeclareFrom place own ms) (second : DeclareFrom place own ms') :
    DeclareFrom place own (ms ++ ms') := fun name scope declared =>
  (declared_append.1 declared).elim (first name scope) (second name scope)

/-- What begins at a part of a node begins at the node. -/
theorem part {k : Nat} (inner : DeclareFrom (k :: place) own ms) : DeclareFrom place own ms :=
  fun name scope declared =>
    (inner name scope declared).imp_left (List.suffix_cons k place).trans

/-- What names are declared in directly is a scope that begins at the position. -/
theorem enter (inner : DeclareFrom place (some place) ms) : DeclareFrom place own ms :=
  fun name scope declared => by
    rcases inner name scope declared with from_place | same
    · exact .inl from_place
    · cases same
      exact .inl List.suffix_rfl

theorem other {m : Mention} (isOther : m.what.isDeclaration = false) :
    DeclareFrom place own [m] :=
  fun _ _ declared => absurd declared (not_declared_other isOther)

theorem declarations (place : Position) (names : List Token) (around : List Enclosure) :
    DeclareFrom place (scopesOf around).head?
      (names.map fun name => ⟨.declaration name, around⟩) := by
  rintro name scope ⟨m, member, token, _, _, isScope⟩
  obtain ⟨token', _, rfl⟩ := List.mem_map.1 member
  exact .inr isScope

theorem weaken (inner : DeclareFrom place none ms) : DeclareFrom place own ms :=
  fun name scope declared => (inner name scope declared).imp_right nofun

end DeclareFrom

mutual

theorem Expr.declareFrom (e : Expr) (place : Position) (around : List Enclosure) :
    DeclareFrom place none (e.mentions place around) := by
  cases e with
  | literal => exact .nil _ _
  | reference | misplaced => exact .other rfl
  | grouping _ inner | unary _ _ inner | step _ inner _ =>
    exact (Expr.declareFrom inner _ around).part
  | binary _ left _ right | logical _ left _ right =>
    exact (Expr.declareFrom left _ around).part.append (Expr.declareFrom right _ around).part
  | assignment _ _ value => exact (Expr.declareFrom value _ around).part.append (.other rfl)
  | call _ callee arguments _ =>
    exact (Expr.declareFrom callee _ around).part.append
      (Expr.declareFromAll arguments _ around).part
  | lambda _ _ params body _ =>
    have first := DeclareFrom.declarations place params (.function place :: around)
    exact (first.append (Stmt.declareFromAll body _ (.function place :: around)).part).enter

theorem Expr.declareFromAll (es : List Expr) (place : Position) (around : List Enclosure) :
    DeclareFrom place none (Expr.allMentions place around es) := by
  cases es with
  | nil => exact .nil _ _
  | cons e rest =>
    exact (Expr.declareFrom e _ around).part.append (Expr.declareFromAll rest _ around).part

theorem Expr.declareFromOption (e? : Option Expr) (place : Position) (around : List Enclosure) :
    DeclareFrom place none (Expr.optionMentions place around e?) := by
  cases e? with
  | none => exact .nil _ _
  | some e => exact Expr.declareFrom e place around

theorem Stmt.declareFrom (s : Stmt) (place : Position) (around : List Enclosure) :
    DeclareFrom place (scopesOf around).head? (s.mentions place around) := by
  cases s with
  | expression e => exact (Expr.declareFrom e _ around).part.weaken
  | declaration name initializer =>
    have first := DeclareFrom.declarations place [name] around
    cases initializer with
    | none => exact first
    | some e => exact first.append (Expr.declareFrom e _ _).part.weaken
  | block ss => exact (Stmt.declareFromAll ss _ (.block place :: around)).part.enter
  | ifElse condition thenBranch elseBranch =>
    exact (Expr.declareFrom condition _ around).part.weaken.append
      ((Stmt.declareFrom thenBranch _ around).part.append
        (Stmt.declareFromOption elseBranch _ around).part).part
  | whileLoop condition body increment =>
    exact (Expr.declareFrom condition _ around).part.weaken.append
      ((Stmt.declareFrom body _ (.loopBody :: around)).part.append
        (Expr.declareFromOption increment _ around).part.weaken).part
  | breakLoop | continueLoop | misplaced => exact .other rfl
  | returnValue keyword value =>
    have first : DeclareFrom place (scopesOf around).head? [⟨.returning keyword, around⟩] :=
      .other rfl
    exact first.append (Expr.declareFromOption value _ around).part.weaken

theorem Stmt.declareFromAll (ss : List Stmt) (place : Position) (around : List Enclosure) :
    DeclareFrom place (scopesOf around).head? (Stmt.allMentions place around ss) := by
  cases ss with
  | nil => exact .nil _ _
  | cons s rest =>
    exact (Stmt.declareFrom s _ around).part.append (Stmt.declareFromAll rest _ around).part

theorem Stmt.declareFromOption (s? : Option Stmt) (place : Position) (around : List Enclosure) :
    DeclareFrom place (scopesOf around).head? (Stmt.optionMentions place around s?) := by
  cases s? with
  | none => exact .nil _ _
  | some s => exact Stmt.declareFrom s place around

end

end Lox
