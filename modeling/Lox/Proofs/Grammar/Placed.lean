import Lox.Proofs.Grammar.Sound
import Lox.Proofs.Scopes.Walk
import Lox.Tree.Print

/-!
# Every node of a program is where it belongs

The trees that tokens are read as have only nodes that belong where they stand. So they have a printed
form, and no walk over them is refused for a node.
-/

namespace Lox

/-! ## What is derived -/

namespace Grammar

theorem wellPlaced_join {tier : Tier} {id : Nat} {left right : Expr} {operator : Token}
    (first : left.WellPlaced) (second : right.WellPlaced) :
    (tier.join id left operator right).WellPlaced := by
  unfold Tier.join
  split
  · exact ⟨first, second⟩
  · exact ⟨first, second⟩

theorem wellPlaced_loop {first : Option Stmt} {condition : Expr} {body : Stmt}
    {increment : Option Expr} (start : Stmt.OptionWellPlaced first) (test : condition.WellPlaced)
    (round : body.WellPlaced) (onward : Expr.OptionWellPlaced increment) :
    (loop first condition body increment).WellPlaced := by
  cases first with
  | none => exact ⟨test, round, onward⟩
  | some s => exact ⟨start, ⟨test, round, onward⟩, trivial⟩

mutual

theorem Expression.wellPlaced {tier : Tier} {ts : List Token} {e : Expr} {i j : Nat} :
    Expression tier ts e i j → e.WellPlaced
  | .tighter inner => inner.wellPlaced
  | .assignment _ _ right => right.wellPlaced
  | .operator _ first second => wellPlaced_join first.wellPlaced second.wellPlaced
  | .unary _ operand | .step _ operand | .grouping _ _ operand => operand.wellPlaced
  | .callWithout _ _ function => ⟨function.wellPlaced, trivial⟩
  | .call _ _ function items _ => ⟨function.wellPlaced, items.wellPlaced⟩
  | .value _ | .yes _ | .no _ | .reference _ => trivial
  | .lambda _ function => function.wellPlaced

theorem Items.wellPlaced {ts : List Token} {es : List Expr} {i j : Nat} :
    Items ts es i j → Expr.AllWellPlaced es
  | .one item => ⟨item.wellPlaced, trivial⟩
  | .more item _ rest => ⟨item.wellPlaced, rest.wellPlaced⟩

theorem Function.wellPlaced {ts params : List Token} {body : List Stmt} {i j : Nat} :
    Function ts params body i j → Stmt.AllWellPlaced body
  | .intro _ _ _ _ _ statements => statements.wellPlaced

theorem Clause.wellPlaced {ts : List Token} {e : Option Expr} {i j : Nat} :
    Clause ts e i j → Expr.OptionWellPlaced e
  | .absent => trivial
  | .present expression => expression.wellPlaced

theorem First.wellPlaced {ts : List Token} {s : Option Stmt} {i j : Nat} :
    First ts s i j → Stmt.OptionWellPlaced s
  | .absent _ => trivial
  | .declared _ declaration => declaration.wellPlaced
  | .expression _ value => value.wellPlaced

theorem Statement.wellPlaced {dangling : Bool} {ts : List Token} {s : Stmt} {i j : Nat} :
    Statement dangling ts s i j → s.WellPlaced
  | .expression _ value | .initialized _ _ _ _ value => value.wellPlaced
  | .declared .. | .breakLoop .. | .continueLoop .. => trivial
  | .function _ _ function => function.wellPlaced
  | .block _ _ content => content.wellPlaced
  | .ifOnly _ _ _ test branch => ⟨test.wellPlaced, branch.wellPlaced, trivial⟩
  | .ifElse _ _ _ _ test branch other => ⟨test.wellPlaced, branch.wellPlaced, other.wellPlaced⟩
  | .whileLoop _ _ _ test body => ⟨test.wellPlaced, body.wellPlaced, trivial⟩
  | .forLoop _ _ _ _ start test onward body =>
    wellPlaced_loop start.wellPlaced test.wellPlaced body.wellPlaced onward.wellPlaced
  | .endlessLoop _ _ _ _ start onward body =>
    wellPlaced_loop start.wellPlaced trivial body.wellPlaced onward.wellPlaced
  | .returnValue _ _ result => result.wellPlaced

theorem Statements.wellPlaced {ts : List Token} {ss : List Stmt} {i j : Nat} :
    Statements ts ss i j → Stmt.AllWellPlaced ss
  | .nil => trivial
  | .cons first others => ⟨first.wellPlaced, others.wellPlaced⟩

end

end Grammar

/-! ## Printed forms -/

mutual

theorem Expr.misplaced?_eq_none (e : Expr) (placed : e.WellPlaced) : e.misplaced? = none := by
  cases e with
  | literal | reference => rfl
  | grouping _ inner | unary _ _ inner | step _ inner _ | assignment _ _ inner =>
    exact Expr.misplaced?_eq_none inner placed
  | binary _ left _ right | logical _ left _ right =>
    obtain ⟨inLeft, inRight⟩ := placed
    simp only [Expr.misplaced?, Expr.misplaced?_eq_none left inLeft,
      Expr.misplaced?_eq_none right inRight, Option.or_none]
  | call _ callee arguments _ =>
    obtain ⟨inCallee, inArguments⟩ := placed
    simp only [Expr.misplaced?, Expr.misplaced?_eq_none callee inCallee,
      Expr.firstMisplaced?_eq_none arguments inArguments, Option.or_none]
  | lambda _ _ _ body _ => exact Stmt.firstMisplaced?_eq_none body placed
  | misplaced => exact placed.elim

theorem Expr.firstMisplaced?_eq_none (es : List Expr) (placed : Expr.AllWellPlaced es) :
    Expr.firstMisplaced? es = none := by
  cases es with
  | nil => rfl
  | cons e rest =>
    obtain ⟨head, tail⟩ := placed
    simp only [Expr.firstMisplaced?, Expr.misplaced?_eq_none e head,
      Expr.firstMisplaced?_eq_none rest tail, Option.or_none]

theorem Expr.optionMisplaced?_eq_none (e? : Option Expr) (placed : Expr.OptionWellPlaced e?) :
    Expr.optionMisplaced? e? = none := by
  cases e? with
  | none => rfl
  | some e => exact Expr.misplaced?_eq_none e placed

theorem Stmt.misplaced?_eq_none (s : Stmt) (placed : s.WellPlaced) : s.misplaced? = none := by
  cases s with
  | expression e => exact Expr.misplaced?_eq_none e placed
  | declaration _ initializer => exact Expr.optionMisplaced?_eq_none initializer placed
  | block statements => exact Stmt.firstMisplaced?_eq_none statements placed
  | ifElse condition thenBranch elseBranch =>
    obtain ⟨inCondition, inThen, inElse⟩ := placed
    simp only [Stmt.misplaced?, Expr.misplaced?_eq_none condition inCondition,
      Stmt.misplaced?_eq_none thenBranch inThen, Stmt.optionMisplaced?_eq_none elseBranch inElse,
      Option.or_none]
  | whileLoop condition body increment =>
    obtain ⟨inCondition, inBody, inIncrement⟩ := placed
    simp only [Stmt.misplaced?, Expr.misplaced?_eq_none condition inCondition,
      Stmt.misplaced?_eq_none body inBody, Expr.optionMisplaced?_eq_none increment inIncrement,
      Option.or_none]
  | breakLoop | continueLoop => rfl
  | returnValue _ value => exact Expr.optionMisplaced?_eq_none value placed
  | misplaced => exact placed.elim

theorem Stmt.firstMisplaced?_eq_none (ss : List Stmt) (placed : Stmt.AllWellPlaced ss) :
    Stmt.firstMisplaced? ss = none := by
  cases ss with
  | nil => rfl
  | cons s rest =>
    obtain ⟨head, tail⟩ := placed
    simp only [Stmt.firstMisplaced?, Stmt.misplaced?_eq_none s head,
      Stmt.firstMisplaced?_eq_none rest tail, Option.or_none]

theorem Stmt.optionMisplaced?_eq_none (s? : Option Stmt) (placed : Stmt.OptionWellPlaced s?) :
    Stmt.optionMisplaced? s? = none := by
  cases s? with
  | none => rfl
  | some s => exact Stmt.misplaced?_eq_none s placed

end

/-! ## Walks -/

section
variable {κ : Type}

/-- If a walk is refused, then for an error of the program. -/
def Findings.Proper (found : Findings κ) : Prop := ∀ kind, found.refusal ≠ some (.misplaced kind)

theorem Findings.proper_nothing : Findings.Proper (.nothing : Findings κ) := nofun

theorem Findings.proper_error (e : ResolutionError) :
    Findings.Proper (.refused (.error e) : Findings κ) := nofun

theorem Findings.Proper.andThen {first second : Findings κ} (before : first.Proper)
    (later : second.Proper) : (first.andThen second).Proper := by
  unfold Findings.andThen
  split
  · exact before
  · exact later

theorem Scopes.proper_note (scopes : Scopes κ) (id : Nat) (form : UseForm) (name : Token) :
    (scopes.note id form name).Proper := by
  unfold Scopes.note
  split
  · exact nofun
  · exact nofun

theorem Scopes.proper_checkReady (scopes : Scopes κ) (name : Token) :
    (scopes.checkReady name).Proper := by
  unfold Scopes.checkReady
  split
  · exact nofun
  · exact nofun

variable (label : ScopeNode → κ)

mutual

theorem Expr.walk_proper (e : Expr) (placed : e.WellPlaced) (scopes : Scopes κ)
    (loops functions : Nat) : (e.walk label scopes loops functions).Proper := by
  cases e with
  | literal => exact nofun
  | grouping _ inner | unary _ _ inner | step _ inner _ =>
    exact Expr.walk_proper inner placed scopes loops functions
  | binary _ left _ right | logical _ left _ right =>
    exact (Expr.walk_proper left placed.1 scopes loops functions).andThen
      (Expr.walk_proper right placed.2 scopes loops functions)
  | reference id name =>
    exact (scopes.proper_checkReady name).andThen (scopes.proper_note id .reference name)
  | assignment id name value =>
    exact (Expr.walk_proper value placed scopes loops functions).andThen
      (scopes.proper_note id .assignment name)
  | call _ callee arguments _ =>
    exact (Expr.walk_proper callee placed.1 scopes loops functions).andThen
      (Expr.walkAll_proper arguments placed.2 scopes loops functions)
  | lambda _ _ _ body _ => exact Stmt.walkAll_proper body placed _ 0 (functions + 1)
  | misplaced => exact placed.elim

theorem Expr.walkAll_proper (es : List Expr) (placed : Expr.AllWellPlaced es) (scopes : Scopes κ)
    (loops functions : Nat) : (Expr.walkAll label scopes loops functions es).Proper := by
  cases es with
  | nil => exact nofun
  | cons e rest =>
    exact (Expr.walk_proper e placed.1 scopes loops functions).andThen
      (Expr.walkAll_proper rest placed.2 scopes loops functions)

theorem Expr.walkOption_proper (e? : Option Expr) (placed : Expr.OptionWellPlaced e?)
    (scopes : Scopes κ) (loops functions : Nat) :
    (Expr.walkOption label scopes loops functions e?).Proper := by
  cases e? with
  | none => exact nofun
  | some e => exact Expr.walk_proper e placed scopes loops functions

theorem Stmt.walk_proper (s : Stmt) (placed : s.WellPlaced) (scopes : Scopes κ)
    (loops functions : Nat) : (s.walk label scopes loops functions).Proper := by
  cases s with
  | expression e => exact Expr.walk_proper e placed scopes loops functions
  | declaration name initializer =>
    cases initializer with
    | none => exact nofun
    | some e => exact Expr.walk_proper e placed _ loops functions
  | block statements => exact Stmt.walkAll_proper statements placed _ loops functions
  | ifElse condition thenBranch elseBranch =>
    obtain ⟨inCondition, inThen, inElse⟩ := placed
    exact (Expr.walk_proper condition inCondition scopes loops functions).andThen
      ((Stmt.walk_proper thenBranch inThen scopes loops functions).andThen
        (Stmt.walkOption_proper elseBranch inElse _ loops functions))
  | whileLoop condition body increment =>
    obtain ⟨inCondition, inBody, inIncrement⟩ := placed
    exact (Expr.walk_proper condition inCondition scopes loops functions).andThen
      ((Stmt.walk_proper body inBody scopes (loops + 1) functions).andThen
        (Expr.walkOption_proper increment inIncrement _ loops functions))
  | breakLoop | continueLoop =>
    rw [Stmt.walk]
    split
    · exact Findings.proper_error _
    · exact Findings.proper_nothing
  | returnValue _ value =>
    rw [Stmt.walk]
    split
    · exact Findings.proper_error _
    · exact Expr.walkOption_proper value placed scopes loops functions
  | misplaced => exact placed.elim

theorem Stmt.walkAll_proper (ss : List Stmt) (placed : Stmt.AllWellPlaced ss) (scopes : Scopes κ)
    (loops functions : Nat) : (Stmt.walkAll label scopes loops functions ss).Proper := by
  cases ss with
  | nil => exact nofun
  | cons s rest =>
    exact (Stmt.walk_proper s placed.1 scopes loops functions).andThen
      (Stmt.walkAll_proper rest placed.2 _ loops functions)

theorem Stmt.walkOption_proper (s? : Option Stmt) (placed : Stmt.OptionWellPlaced s?)
    (scopes : Scopes κ) (loops functions : Nat) :
    (Stmt.walkOption label scopes loops functions s?).Proper := by
  cases s? with
  | none => exact nofun
  | some s => exact Stmt.walk_proper s placed scopes loops functions

end

end

/-! ## Programs -/

/-- A text's program has only nodes that belong where they stand. -/
theorem Stream.wellPlaced_program {stream : Stream} (isStop : stream.stop.kind = .eof)
    {nextId n : Nat} {p : Program} (outcome : stream.program nextId = (.ok p, n)) :
    Stmt.AllWellPlaced p := by
  obtain ⟨_, _, _, derived⟩ := Grammar.derived_of_program isStop outcome
  exact derived.wellPlaced

theorem Stmt.AllWellPlaced.mem {ss : List Stmt} (placed : Stmt.AllWellPlaced ss) :
    ∀ s ∈ ss, s.WellPlaced := by
  induction ss with
  | nil => exact fun _ member => absurd member List.not_mem_nil
  | cons s rest ih => exact List.forall_mem_cons.2 ⟨placed.1, ih placed.2⟩

/-- The resolution of a program in which every node is where it belongs is not refused for a node. -/
theorem Program.resolution_proper {p : Program} (placed : Stmt.AllWellPlaced p) (kind : NodeKind) :
    p.resolution.outcome ≠ .error (.misplaced kind) := by
  have proper := Stmt.walkAll_proper unlabelled p placed [] 0 0 kind
  rw [Program.resolution_eq unlabelled p]
  intro refused
  split at refused
  · cases refused
  · next isRefusal =>
    cases refused
    exact proper isRefusal

end Lox
