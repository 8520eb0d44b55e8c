import Lox.Proofs.Grammar.Sound
import Lox.Proofs.Printing.Twins
import Lox.Proofs.Sessions.Stages
import Lox.Proofs.Trees.Nodes

/-!
# The printed form determines the tree

Main statement: of the statements that texts are read as, and likewise of the expressions, any two
that are printed alike differ at most in what is not printed, as long as no number in them is
infinite.
-/

namespace Lox

open Lox.Number (InDigits UnsignedFloat inDigits)

/-! ## What is derived is legible -/

/-- A token that a text can spell. -/
def Token.Written (t : Token) : Prop := Token.Complete [] t.kind t.literal t.lexeme.toList

theorem Token.Written.legible {t : Token} {kinds : List Kind} (written : t.Written)
    (kind : t.kind ∈ kinds) : t.Legible kinds :=
  ⟨kind, written⟩

/-- The number of a token has no minus sign, and its string has no quotes inside. -/
theorem Token.Written.literal {t : Token} (written : t.Written) :
    t.literal.Legible UnsignedFloat := by
  have complete : Token.Complete [] t.kind t.literal t.lexeme.toList := written
  revert complete
  generalize t.kind = kind, t.literal = literal, t.lexeme.toList = text
  intro complete
  cases complete with
  | symbol | word => trivial
  | whole | fraction => exact Number.unsignedFloat_numeral _ _
  | string inside => rwa [Literal.Legible, String.toList_ofList]

/-- The tokens of a text can be spelled. -/
theorem written_of_tokenize {text : List Char} {stream : Stream}
    (scanned : tokenize text = .ok stream) : ∀ t ∈ stream.tokens, t.Written := by
  intro t member
  have isScan : (scan text).stream = stream := by
    unfold tokenize at scanned
    dsimp only at scanned
    split at scanned
    · exact Except.ok.inj scanned
    · cases scanned
  rw [← isScan] at member
  exact (Token.spelled_iff.1 (spelled_of_scanned member)).1

namespace Grammar

theorem Names.legible {ts names : List Token} (derived : Names ts names)
    (written : ∀ t ∈ ts, t.Written) : ∀ name ∈ names, name.Legible [.identifier] := by
  induction derived with
  | one isName =>
    simp only [List.mem_singleton, forall_eq] at written ⊢
    exact written.legible (by simp [isName])
  | more isName _ _ ih =>
    simp only [List.forall_mem_cons] at written ⊢
    exact ⟨written.1.legible (by simp [isName]), ih written.2.2⟩

theorem Parameters.legible {ts names : List Token} (derived : Parameters ts names)
    (written : ∀ t ∈ ts, t.Written) : ∀ name ∈ names, name.Legible [.identifier] := by
  cases derived with
  | none => exact nofun
  | some names_of _ => exact names_of.legible written

theorem legible_join {tier : Tier} {id : Nat} {left right : Expr} {operator : Token}
    (first : left.Legible UnsignedFloat) (written : operator.Written)
    (isOperator : operator.kind ∈ tier.operators) (second : right.Legible UnsignedFloat) :
    (tier.join id left operator right).Legible UnsignedFloat := by
  cases tier <;> simp only [Tier.operators, List.not_mem_nil] at isOperator
  case or | and =>
    exact ⟨first, written.legible (by revert isOperator; cases operator.kind <;> decide), second⟩
  case equality | comparison | term | factor =>
    exact ⟨first, written.legible (by revert isOperator; cases operator.kind <;> decide), second⟩

theorem legible_loop {first : Option Stmt} {condition : Expr} {body : Stmt}
    {increment : Option Expr} (start : Stmt.OptionLegible UnsignedFloat first)
    (test : condition.Legible UnsignedFloat) (round : body.Legible UnsignedFloat)
    (onward : Expr.OptionLegible UnsignedFloat increment) :
    (loop first condition body increment).Legible UnsignedFloat := by
  cases first with
  | none => exact ⟨test, round, onward⟩
  | some s => exact ⟨start, ⟨test, round, onward⟩, trivial⟩

mutual

theorem Expression.legible {tier : Tier} {ts : List Token} {e : Expr} {i j : Nat} :
    Expression tier ts e i j → (∀ t ∈ ts, t.Written) → e.Legible UnsignedFloat
  | .tighter inner, written => inner.legible written
  | .assignment isName _ right, written => by
    simp only [List.forall_mem_cons] at written
    exact ⟨written.1.legible (by simp [isName]), right.legible written.2.2⟩
  | .operator isOperator first second, written => by
    simp only [List.forall_mem_append, List.forall_mem_cons] at written
    exact legible_join (first.legible written.1) written.2.1 isOperator (second.legible written.2.2)
  | .unary isOperator operand, written => by
    simp only [List.forall_mem_cons] at written
    exact ⟨written.1.legible (by simpa using isOperator), operand.legible written.2⟩
  | .step isOperator operand, written => by
    simp only [List.forall_mem_append, List.forall_mem_cons] at written
    exact ⟨operand.legible written.1, written.2.1.legible (by simpa using isOperator)⟩
  | .callWithout _ isClosing function, written => by
    simp only [List.forall_mem_append, List.forall_mem_cons] at written
    exact ⟨function.legible written.1, trivial, written.2.2.1.legible (by simp [isClosing])⟩
  | .call _ isClosing function items _, written => by
    simp only [List.forall_mem_append, List.forall_mem_cons] at written
    exact ⟨function.legible written.1, items.legible written.2.2.1,
      written.2.2.2.1.legible (by simp [isClosing])⟩
  | .value _, written => (written _ List.mem_cons_self).literal
  | .yes _, _ | .no _, _ => trivial
  | .reference isName, written =>
    (written _ List.mem_cons_self).legible (by simp [isName])
  | .grouping _ _ content, written => by
    simp only [List.forall_mem_append, List.forall_mem_cons] at written
    exact content.legible written.2.1
  | .lambda isKeyword function, written => by
    simp only [List.forall_mem_cons] at written
    exact ⟨written.1.legible (by simp [isKeyword]), function.legible written.2⟩

theorem Items.legible {ts : List Token} {es : List Expr} {i j : Nat} :
    Items ts es i j → (∀ t ∈ ts, t.Written) → Expr.AllLegible UnsignedFloat es
  | .one item, written => ⟨item.legible written, trivial⟩
  | .more item _ rest, written => by
    simp only [List.forall_mem_append, List.forall_mem_cons] at written
    exact ⟨item.legible written.1, rest.legible written.2.2⟩

theorem Function.legible {ts params : List Token} {body : List Stmt} {i j : Nat} :
    Function ts params body i j → (∀ t ∈ ts, t.Written) →
      (∀ name ∈ params, name.Legible [.identifier]) ∧ Stmt.AllLegible UnsignedFloat body
  | .intro _ _ _ _ parameters statements, written => by
    simp only [List.forall_mem_append, List.forall_mem_cons] at written
    exact ⟨parameters.legible written.2.1, statements.legible written.2.2.2.2.1⟩

theorem Clause.legible {ts : List Token} {e : Option Expr} {i j : Nat} :
    Clause ts e i j → (∀ t ∈ ts, t.Written) → Expr.OptionLegible UnsignedFloat e
  | .absent, _ => trivial
  | .present expression, written => expression.legible written

theorem First.legible {ts : List Token} {s : Option Stmt} {i j : Nat} :
    First ts s i j → (∀ t ∈ ts, t.Written) → Stmt.OptionLegible UnsignedFloat s
  | .absent _, _ => trivial
  | .declared _ declaration, written => declaration.legible written
  | .expression _ value, written => value.legible (List.forall_mem_append.1 written).1

theorem Statement.legible {dangling : Bool} {ts : List Token} {s : Stmt} {i j : Nat} :
    Statement dangling ts s i j → (∀ t ∈ ts, t.Written) → s.Legible UnsignedFloat
  | .expression _ value, written => value.legible (List.forall_mem_append.1 written).1
  | .declared _ isName _, written => by
    simp only [List.forall_mem_cons] at written
    exact ⟨written.2.1.legible (by simp [isName]), trivial⟩
  | .initialized _ isName _ _ value, written => by
    simp only [List.forall_mem_append, List.forall_mem_cons] at written
    exact ⟨written.2.1.legible (by simp [isName]), value.legible written.2.2.2.1⟩
  | .function isKeyword isName function, written => by
    simp only [List.forall_mem_cons] at written
    exact ⟨written.2.1.legible (by simp [isName]), written.1.legible (by simp [isKeyword]),
      function.legible written.2.2⟩
  | .block _ _ content, written => by
    simp only [List.forall_mem_append, List.forall_mem_cons] at written
    exact content.legible written.2.1
  | .ifOnly _ _ _ test branch, written => by
    simp only [List.forall_mem_append, List.forall_mem_cons] at written
    exact ⟨test.legible written.2.2.1, branch.legible written.2.2.2.2, trivial⟩
  | .ifElse _ _ _ _ test branch other, written => by
    simp only [List.forall_mem_append, List.forall_mem_cons] at written
    exact ⟨test.legible written.2.2.1, branch.legible written.2.2.2.2.1,
      other.legible written.2.2.2.2.2.2⟩
  | .whileLoop _ _ _ test body, written => by
    simp only [List.forall_mem_append, List.forall_mem_cons] at written
    exact ⟨test.legible written.2.2.1, body.legible written.2.2.2.2, trivial⟩
  | .forLoop _ _ _ _ start test onward body, written => by
    simp only [List.forall_mem_append, List.forall_mem_cons] at written
    exact legible_loop (start.legible written.2.2.1) (test.legible written.2.2.2.1)
      (body.legible written.2.2.2.2.2.2.2) (onward.legible written.2.2.2.2.2.1)
  | .endlessLoop _ _ _ _ start onward body, written => by
    simp only [List.forall_mem_append, List.forall_mem_cons] at written
    exact legible_loop (start.legible written.2.2.1) trivial
      (body.legible written.2.2.2.2.2.2) (onward.legible written.2.2.2.2.1)
  | .breakLoop isKeyword _, written | .continueLoop isKeyword _, written =>
    (written _ List.mem_cons_self).legible (by simp [isKeyword])
  | .returnValue isKeyword _ result, written => by
    simp only [List.forall_mem_append, List.forall_mem_cons] at written
    exact ⟨written.1.legible (by simp [isKeyword]), result.legible written.2.1⟩

theorem Statements.legible {ts : List Token} {ss : List Stmt} {i j : Nat} :
    Statements ts ss i j → (∀ t ∈ ts, t.Written) → Stmt.AllLegible UnsignedFloat ss
  | .nil, _ => trivial
  | .cons first others, written => by
    obtain ⟨inFirst, inOthers⟩ := List.forall_mem_append.1 written
    exact ⟨first.legible inFirst, others.legible inOthers⟩

end

end Grammar

/-! ## Statements inside of trees -/

mutual

/-- The statements in the functions of an expression. -/
def Expr.statements : Expr → List Stmt
  | .literal .. | .reference .. | .misplaced _ => []
  | .grouping _ inner | .unary _ _ inner | .step _ inner _ | .assignment _ _ inner =>
    inner.statements
  | .binary _ left _ right | .logical _ left _ right => left.statements ++ right.statements
  | .call _ callee arguments _ => callee.statements ++ Expr.allStatements arguments
  | .lambda _ _ _ body _ => Stmt.allParts body

/-- The statements in the functions of some expressions. -/
def Expr.allStatements : List Expr → List Stmt
  | [] => []
  | e :: rest => e.statements ++ Expr.allStatements rest

/-- The statements in the functions of an optional expression. -/
def Expr.optionStatements : Option Expr → List Stmt
  | none => []
  | some e => e.statements

/-- The statements inside of a statement. -/
def Stmt.enclosed : Stmt → List Stmt
  | .expression e => e.statements
  | .declaration _ initializer => Expr.optionStatements initializer
  | .block statements => Stmt.allParts statements
  | .ifElse condition thenBranch elseBranch =>
    condition.statements ++ ((thenBranch :: thenBranch.enclosed) ++ Stmt.optionParts elseBranch)
  | .whileLoop condition body increment =>
    condition.statements ++ ((body :: body.enclosed) ++ Expr.optionStatements increment)
  | .breakLoop _ | .continueLoop _ | .misplaced _ => []
  | .returnValue _ value => Expr.optionStatements value

/-- Some statements and those inside of them. -/
def Stmt.allParts : List Stmt → List Stmt
  | [] => []
  | s :: rest => (s :: s.enclosed) ++ Stmt.allParts rest

/-- An optional statement and those inside of it. -/
def Stmt.optionParts : Option Stmt → List Stmt
  | none => []
  | some s => s :: s.enclosed

end

/-- Expressions and statements are legible. -/
def AllLegible (numbers : Float → Prop) (nodes : List Expr) (statements : List Stmt) : Prop :=
  (∀ node ∈ nodes, node.Legible numbers) ∧ ∀ s ∈ statements, s.Legible numbers

section
variable {numbers : Float → Prop}

theorem AllLegible.append {nodes nodes' : List Expr} {statements statements' : List Stmt}
    (first : AllLegible numbers nodes statements) (second : AllLegible numbers nodes' statements') :
    AllLegible numbers (nodes ++ nodes') (statements ++ statements') :=
  ⟨List.forall_mem_append.2 ⟨first.1, second.1⟩, List.forall_mem_append.2 ⟨first.2, second.2⟩⟩

theorem AllLegible.node {nodes : List Expr} {statements : List Stmt} {e : Expr}
    (inside : AllLegible numbers nodes statements) (legible : e.Legible numbers) :
    AllLegible numbers (nodes ++ [e]) statements :=
  ⟨List.forall_mem_append.2 ⟨inside.1, List.forall_mem_singleton.2 legible⟩, inside.2⟩

theorem AllLegible.statement {nodes : List Expr} {statements : List Stmt} {s : Stmt}
    (inside : AllLegible numbers nodes statements) (legible : s.Legible numbers) :
    AllLegible numbers nodes (s :: statements) :=
  ⟨inside.1, List.forall_mem_cons.2 ⟨legible, inside.2⟩⟩

theorem allLegible_nil : AllLegible numbers [] [] := ⟨nofun, nofun⟩

mutual

/-- What is inside of a legible expression is legible. -/
theorem Expr.Legible.inside {e : Expr} (legible : e.Legible numbers) :
    AllLegible numbers e.enclosed e.statements := by
  cases e with
  | literal | reference => exact allLegible_nil
  | grouping _ inner =>
    have legibleInner : inner.Legible numbers := legible
    exact legibleInner.inside.node legibleInner
  | unary _ _ right => exact (Expr.Legible.inside legible.2).node legible.2
  | assignment _ _ value => exact (Expr.Legible.inside legible.2).node legible.2
  | step _ left _ => exact (Expr.Legible.inside legible.1).node legible.1
  | binary _ left _ right | logical _ left _ right =>
    exact ((Expr.Legible.inside legible.1).node legible.1).append
      ((Expr.Legible.inside legible.2.2).node legible.2.2)
  | call _ callee arguments _ =>
    exact ((Expr.Legible.inside legible.1).node legible.1).append
      (Expr.AllLegible.inside legible.2.1)
  | lambda _ _ _ body _ => exact Stmt.AllLegible.inside legible.2.2
  | misplaced => exact legible.elim

theorem Expr.AllLegible.inside {es : List Expr} (legible : Expr.AllLegible numbers es) :
    Lox.AllLegible numbers (Expr.allNodes es) (Expr.allStatements es) := by
  cases es with
  | nil => exact allLegible_nil
  | cons e rest =>
    exact ((Expr.Legible.inside legible.1).node legible.1).append
      (Expr.AllLegible.inside legible.2)

theorem Expr.OptionLegible.inside {e? : Option Expr} (legible : Expr.OptionLegible numbers e?) :
    Lox.AllLegible numbers (Expr.optionNodes e?) (Expr.optionStatements e?) := by
  cases e? with
  | none => exact allLegible_nil
  | some e => exact (Expr.Legible.inside legible).node legible

theorem Stmt.Legible.inside {s : Stmt} (legible : s.Legible numbers) :
    AllLegible numbers s.nodes s.enclosed := by
  cases s with
  | expression e => exact (Expr.Legible.inside legible).node legible
  | declaration _ initializer => exact Expr.OptionLegible.inside legible.2
  | block statements => exact Stmt.AllLegible.inside legible
  | ifElse condition thenBranch elseBranch =>
    obtain ⟨test, first, second⟩ := legible
    exact ((Expr.Legible.inside test).node test).append
      (((Stmt.Legible.inside first).statement first).append (Stmt.OptionLegible.inside second))
  | whileLoop condition body increment =>
    obtain ⟨test, round, onward⟩ := legible
    exact ((Expr.Legible.inside test).node test).append
      (((Stmt.Legible.inside round).statement round).append (Expr.OptionLegible.inside onward))
  | breakLoop | continueLoop => exact allLegible_nil
  | returnValue _ value => exact Expr.OptionLegible.inside legible.2
  | misplaced => exact legible.elim

theorem Stmt.AllLegible.inside {ss : List Stmt} (legible : Stmt.AllLegible numbers ss) :
    Lox.AllLegible numbers (Stmt.allNodes ss) (Stmt.allParts ss) := by
  cases ss with
  | nil => exact allLegible_nil
  | cons s rest =>
    exact ((Stmt.Legible.inside legible.1).statement legible.1).append
      (Stmt.AllLegible.inside legible.2)

theorem Stmt.OptionLegible.inside {s? : Option Stmt} (legible : Stmt.OptionLegible numbers s?) :
    Lox.AllLegible numbers (Stmt.optionNodes s?) (Stmt.optionParts s?) := by
  cases s? with
  | none => exact allLegible_nil
  | some s => exact (Stmt.Legible.inside legible).statement legible

end

end

/-! ## Finite numbers -/

/-- An expression is no number literal that is infinite. -/
def Expr.IsFinite : Expr → Prop
  | .literal _ (.num x) => x.isInf = false
  | _ => True

/-- No number literal among some expressions is infinite. -/
def Finite (nodes : List Expr) : Prop := ∀ node ∈ nodes, node.IsFinite

theorem Finite.of_append {nodes nodes' : List Expr} (finite : Finite (nodes ++ nodes')) :
    Finite nodes ∧ Finite nodes' :=
  List.forall_mem_append.1 finite

mutual

/-- Without infinite numbers, all numbers of a legible expression are written in digits. -/
theorem Expr.Legible.inDigits {e : Expr} (legible : e.Legible UnsignedFloat)
    (finite : Finite (e.enclosed ++ [e])) : e.Legible InDigits := by
  cases e with
  | literal _ value =>
    cases value with
    | num x => exact Number.inDigits legible (finite _ List.mem_cons_self)
    | nil | bool | str => exact legible
  | grouping _ inner =>
    have legibleInner : inner.Legible UnsignedFloat := legible
    exact legibleInner.inDigits finite.of_append.1
  | unary _ _ right => exact ⟨legible.1, Expr.Legible.inDigits legible.2 finite.of_append.1⟩
  | assignment _ _ value => exact ⟨legible.1, Expr.Legible.inDigits legible.2 finite.of_append.1⟩
  | step _ left _ => exact ⟨Expr.Legible.inDigits legible.1 finite.of_append.1, legible.2⟩
  | binary _ left _ right | logical _ left _ right =>
    obtain ⟨inLeft, inRight⟩ := finite.of_append.1.of_append
    exact ⟨Expr.Legible.inDigits legible.1 inLeft, legible.2.1,
      Expr.Legible.inDigits legible.2.2 inRight⟩
  | reference => exact legible
  | call _ callee arguments _ =>
    obtain ⟨inCallee, inArguments⟩ := finite.of_append.1.of_append
    exact ⟨Expr.Legible.inDigits legible.1 inCallee,
      Expr.AllLegible.inDigits legible.2.1 inArguments, legible.2.2⟩
  | lambda _ _ _ body _ =>
    exact ⟨legible.1, legible.2.1, Stmt.AllLegible.inDigits legible.2.2 finite.of_append.1⟩
  | misplaced => exact legible

theorem Expr.AllLegible.inDigits {es : List Expr} (legible : Expr.AllLegible UnsignedFloat es)
    (finite : Finite (Expr.allNodes es)) : Expr.AllLegible InDigits es := by
  cases es with
  | nil => trivial
  | cons e rest =>
    obtain ⟨inFirst, inRest⟩ := finite.of_append
    exact ⟨Expr.Legible.inDigits legible.1 inFirst, Expr.AllLegible.inDigits legible.2 inRest⟩

theorem Expr.OptionLegible.inDigits {e? : Option Expr}
    (legible : Expr.OptionLegible UnsignedFloat e?) (finite : Finite (Expr.optionNodes e?)) :
    Expr.OptionLegible InDigits e? := by
  cases e? with
  | none => trivial
  | some e => exact Expr.Legible.inDigits legible finite

theorem Stmt.Legible.inDigits {s : Stmt} (legible : s.Legible UnsignedFloat)
    (finite : Finite s.nodes) : s.Legible InDigits := by
  cases s with
  | expression e => exact Expr.Legible.inDigits legible finite
  | declaration _ initializer => exact ⟨legible.1, Expr.OptionLegible.inDigits legible.2 finite⟩
  | block statements => exact Stmt.AllLegible.inDigits legible finite
  | ifElse condition thenBranch elseBranch =>
    obtain ⟨inCondition, inBranches⟩ := finite.of_append
    obtain ⟨inThen, inElse⟩ := inBranches.of_append
    exact ⟨Expr.Legible.inDigits legible.1 inCondition, Stmt.Legible.inDigits legible.2.1 inThen,
      Stmt.OptionLegible.inDigits legible.2.2 inElse⟩
  | whileLoop condition body increment =>
    obtain ⟨inCondition, inOthers⟩ := finite.of_append
    obtain ⟨inBody, inIncrement⟩ := inOthers.of_append
    exact ⟨Expr.Legible.inDigits legible.1 inCondition, Stmt.Legible.inDigits legible.2.1 inBody,
      Expr.OptionLegible.inDigits legible.2.2 inIncrement⟩
  | breakLoop | continueLoop | misplaced => exact legible
  | returnValue _ value => exact ⟨legible.1, Expr.OptionLegible.inDigits legible.2 finite⟩

theorem Stmt.AllLegible.inDigits {ss : List Stmt} (legible : Stmt.AllLegible UnsignedFloat ss)
    (finite : Finite (Stmt.allNodes ss)) : Stmt.AllLegible InDigits ss := by
  cases ss with
  | nil => trivial
  | cons s rest =>
    obtain ⟨inFirst, inRest⟩ := finite.of_append
    exact ⟨Stmt.Legible.inDigits legible.1 inFirst, Stmt.AllLegible.inDigits legible.2 inRest⟩

theorem Stmt.OptionLegible.inDigits {s? : Option Stmt}
    (legible : Stmt.OptionLegible UnsignedFloat s?) (finite : Finite (Stmt.optionNodes s?)) :
    Stmt.OptionLegible InDigits s? := by
  cases s? with
  | none => trivial
  | some s => exact Stmt.Legible.inDigits legible finite

end

/-! ## Trees of texts -/

/-- Some text is read as a program or as an expression with the given statement inside. -/
inductive Stmt.OfText (s : Stmt) : Prop
  | program {source : String} {stream : Stream} {p : Program} {i j : Nat}
      (scanned : tokenize source.toList = .ok stream) (read : stream.program i = (.ok p, j))
      (inside : s ∈ Stmt.allParts p)
  | expression {source : String} {stream : Stream} {e : Expr} {i j : Nat}
      (scanned : tokenize source.toList = .ok stream) (read : stream.expression i = (.ok e, j))
      (inside : s ∈ e.statements)

/-- Some text is read as a program or as an expression with the given expression inside. -/
inductive Expr.OfText (e : Expr) : Prop
  | program {source : String} {stream : Stream} {p : Program} {i j : Nat}
      (scanned : tokenize source.toList = .ok stream) (read : stream.program i = (.ok p, j))
      (inside : e ∈ p.nodes)
  | expression {source : String} {stream : Stream} {f : Expr} {i j : Nat}
      (scanned : tokenize source.toList = .ok stream) (read : stream.expression i = (.ok f, j))
      (inside : e ∈ f.nodes)

section
variable {source : String} {stream : Stream} {i j : Nat}

theorem legible_of_program {p : Program} (scanned : tokenize source.toList = .ok stream)
    (read : stream.program i = (.ok p, j)) :
    AllLegible UnsignedFloat p.nodes (Stmt.allParts p) := by
  obtain ⟨ts, rest, split, derived⟩ := Grammar.derived_of_program (tokenize_stop scanned) read
  have written := written_of_tokenize scanned
  rw [split] at written
  exact (derived.legible (List.forall_mem_append.1 written).1).inside

theorem legible_of_expression {e : Expr} (scanned : tokenize source.toList = .ok stream)
    (read : stream.expression i = (.ok e, j)) :
    AllLegible UnsignedFloat e.nodes e.statements := by
  obtain ⟨ts, rest, split, derived⟩ := Grammar.derived_of_expression (tokenize_stop scanned) read
  have written := written_of_tokenize scanned
  rw [split] at written
  have legible := derived.legible (List.forall_mem_append.1 written).1
  exact legible.inside.node legible

end

theorem Stmt.OfText.legible {s : Stmt} : s.OfText → s.Legible UnsignedFloat
  | .program scanned read inside => (legible_of_program scanned read).2 s inside
  | .expression scanned read inside => (legible_of_expression scanned read).2 s inside

theorem Expr.OfText.legible {e : Expr} : e.OfText → e.Legible UnsignedFloat
  | .program scanned read inside => (legible_of_program scanned read).1 e inside
  | .expression scanned read inside => (legible_of_expression scanned read).1 e inside

/-- The printed form determines the tree. Statements of texts without infinite numbers that are
printed alike are equal up to the numbers of their nodes, the lines of their tokens, the names of
their functions, and number literals with the same text; and so are expressions. -/
theorem printed_determines :
    (∀ s t : Stmt, s.OfText → t.OfText → Finite s.nodes → Finite t.nodes →
      s.printed = t.printed → s.Twins t) ∧
    ∀ e f : Expr, e.OfText → f.OfText → Finite e.nodes → Finite f.nodes →
      e.printed = f.printed → e.Twins f := by
  refine ⟨fun s t ofText ofText' finite finite' same => ?_,
    fun e f ofText ofText' finite finite' same => ?_⟩
  · exact Stmt.twins_of_printed (ofText.legible.inDigits finite) (ofText'.legible.inDigits finite')
      same
  · exact Expr.twins_of_printed (ofText.legible.inDigits finite) (ofText'.legible.inDigits finite')
      same

set_option maxRecDepth 1000 in
/-- A loop without an increment is printed as a `while` loop with its body on another line. -/
theorem loops_twins :
    let name (lexeme : String) (line : Int) : Token := ⟨.identifier, lexeme, .nil, line⟩
    let loop (line : Int) : Stmt :=
      .whileLoop (.reference 0 (name "a" 1)) (.expression (.reference 1 (name "b" line))) none
    (loop 1).OfText ∧ (loop 2).OfText ∧ Finite (loop 1).nodes ∧ Finite (loop 2).nodes ∧
      (loop 1).printed = (loop 2).printed ∧ (loop 1).Twins (loop 2) := by
  intro name loop
  let token (kind : Kind) (lexeme : String) : Token := ⟨kind, lexeme, .nil, 1⟩
  have isFor : tokenize "for(;a;)b;".toList = .ok ⟨[token .forWord "for", token .leftParen "(",
      token .semicolon ";", name "a" 1, token .semicolon ";", token .rightParen ")", name "b" 1,
      token .semicolon ";"], token .eof ""⟩ := by cbv
  have isWhile : tokenize "while(a)\nb;".toList = .ok ⟨[token .whileWord "while",
      token .leftParen "(", name "a" 1, token .rightParen ")", name "b" 2,
      ⟨.semicolon, ";", .nil, 2⟩], ⟨.eof, "", .nil, 2⟩⟩ := by cbv
  have ofText : (loop 1).OfText :=
    .program isFor (show Stream.program _ 0 = (.ok [loop 1], 2) from rfl) List.mem_cons_self
  have ofText' : (loop 2).OfText :=
    .program isWhile (show Stream.program _ 0 = (.ok [loop 2], 2) from rfl) List.mem_cons_self
  have finite (line : Int) : Finite (loop line).nodes := by
    simp [Finite, loop, Stmt.nodes, Expr.enclosed, Expr.optionNodes, Expr.IsFinite]
  have same : (loop 1).printed = (loop 2).printed := rfl
  exact ⟨ofText, ofText', finite 1, finite 2, same,
    printed_determines.1 _ _ ofText ofText' (finite 1) (finite 2) same⟩

end Lox
