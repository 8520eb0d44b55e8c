import Lox.Proofs.Runs.Keeps
import Lox.Proofs.Trees.Relabel
import Lox.Tree.OfTokens

/-!
# Reading with later numbers

A reader that starts with a later number reads the same, with all numbers as much later. It stops at
the same token for the same cause, and uses up as many numbers.
-/

namespace Lox

/-- An expression with its numbers later. -/
abbrev Expr.later (d : Nat) (e : Expr) : Expr := e.relabel id (· + d)

/-- A statement with its numbers later. -/
abbrev Stmt.later (d : Nat) (s : Stmt) : Stmt := s.relabel id (· + d)

/-- A program with its numbers later. -/
abbrev Program.later (d : Nat) (p : Program) : Program := Stmt.relabelAll id (· + d) p

/-- A syntax error with the numbers of the statements before it later. -/
def SyntaxError.later (d : Nat) (e : SyntaxError) : SyntaxError :=
  { e with before := Program.later d e.before }

/-- A place with a later number for the next node. -/
def Cursor.later (d : Nat) (c : Cursor) : Cursor := { c with nextId := c.nextId + d }

theorem Expr.relabelAll_eq_map (lines : Int → Int) (numbers : Nat → Nat) (es : List Expr) :
    Expr.relabelAll lines numbers es = es.map (·.relabel lines numbers) := by
  induction es with
  | nil => rfl
  | cons e rest ih => rw [Expr.relabelAll, List.map_cons, ih]

namespace Reading

section
variable {α β : Type} {d : Nat}

/-- What a reader does from a place on, the other one does with later numbers; what it reads is
changed as given. -/
def Later (d : Nat) (F : α → β) (reading : Reading α) (reading' : Reading β) : Prop :=
  ∀ c, reading' (c.later d) = match reading c with
    | .ok x c => .ok (F x) (c.later d)
    | .error e c => .error (e.later d) (c.later d)

/-! ## Readers in general -/

theorem later_pure {F : α → β} (x : α) : Later d F (pure x) (pure (F x)) := fun _ => rfl

theorem later_pure_of {F : α → β} {x : α} {y : β} (same : F x = y) :
    Later d F (pure x) (pure y) := by
  rw [← same]
  exact later_pure x

theorem Later.bind {α' β' : Type} {F : α → α'} {G : β → β'} {reading : Reading α}
    {reading' : Reading α'} {f : α → Reading β} {f' : α' → Reading β'}
    (first : Later d F reading reading') (second : ∀ x, Later d G (f x) (f' (F x))) :
    Later d G (reading >>= f) (reading' >>= f') := by
  intro c
  have same := first c
  cases read : reading c with
  | ok x c₁ =>
    rw [read] at same
    rw [run_bind_of_ok read, run_bind_of_ok same]
    exact second x c₁
  | error e c₁ =>
    rw [read] at same
    rw [run_bind_of_error read, run_bind_of_error same]

theorem Later.map {α' β' : Type} {F : α → α'} {G : β → β'} {f : α → β} {f' : α' → β'}
    {reading : Reading α} {reading' : Reading α'} (first : Later d F reading reading')
    (same : ∀ x, f' (F x) = G (f x)) : Later d G (f <$> reading) (f' <$> reading') :=
  first.bind fun x => later_pure_of (same x).symm

theorem later_fail {F : α → β} (cause : SyntaxError.Cause) (found : Token) :
    Later d F (fail cause found) (fail cause found) := fun _ => rfl

theorem later_peek : Later d id peek peek := fun _ => rfl

theorem later_advance : Later d id advance advance := fun _ => rfl

theorem later_check (kind : Kind) : Later d id (check kind) (check kind) := fun _ => rfl

theorem later_accept (kind : Kind) : Later d id (accept kind) (accept kind) := by
  refine (later_check kind).bind fun found => ?_
  cases found with
  | true => exact later_advance.bind fun _ => later_pure _
  | false => exact later_pure _

theorem later_want (wanted : Wanted) : Later d id (want wanted) (want wanted) := by
  refine later_peek.bind fun t => ?_
  dsimp only [id_eq]
  by_cases right : t.kind = wanted.kind
  · simp only [right, if_true]
    exact later_advance
  · simp only [right, if_false]
    exact later_fail _ _

/-- Only the numbers that are given out differ. -/
theorem later_freshId : Later d (· + d) freshId freshId := by
  intro c
  show EStateM.Result.ok (c.nextId + d) { c with nextId := c.nextId + d + 1 } =
    .ok (c.nextId + d) { c with nextId := c.nextId + 1 + d }
  rw [Nat.add_right_comm]

section
variable {F : α → β} {item : Reading α} {item' : Reading β} (items : Later d F item item')
include items

theorem later_commaSeparated (tooMany : SyntaxError.Cause) (count : Nat) :
    Later d (List.map F) (commaSeparated tooMany item count)
      (commaSeparated tooMany item' count) := by
  induction count with
  | zero => exact later_peek.bind fun _ => later_fail _ _
  | succ more ih =>
    refine items.bind fun x => (later_accept .comma).bind fun found => ?_
    cases found with
    | true => exact ih.bind fun _ => later_pure _
    | false => exact later_pure _

theorem later_listed (tooMany : SyntaxError.Cause) (closing : Wanted) :
    Later d (Prod.map (List.map F) id) (listed tooMany closing item)
      (listed tooMany closing item') := by
  refine (later_check closing.kind).bind fun found => ?_
  cases found with
  | true => exact (later_want closing).bind fun _ => later_pure (_, _)
  | false =>
    exact (later_commaSeparated items _ _).bind fun _ => (later_want closing).bind fun _ =>
      later_pure (_, _)

theorem later_absentAt (kind : Kind) :
    Later d (Option.map F) (absentAt kind item) (absentAt kind item') := by
  refine (later_check kind).bind fun found => ?_
  cases found with
  | true => exact later_pure none
  | false => exact items.bind fun x => later_pure (some x)

theorem later_after (s : Stmt) : Later d F (after s item) (after (s.later d) item') := by
  intro c
  have same := items c
  unfold after EStateM.adaptExcept
  cases read : item c with
  | ok x c₁ =>
    rw [read] at same
    rw [same]
  | error e c₁ =>
    rw [read] at same
    rw [same]
    rfl

end

end

/-! ## Parts with given readers -/

section

set_option linter.unusedSectionVars false

variable {d : Nat} {expression : Nat → Reading Expr} {statement : Reading Stmt}
  {body : Reading (List Stmt)}
  (onExpression : ∀ above, Later d (Expr.later d) (expression above) (expression above))
  (onStatement : Later d (Stmt.later d) statement statement)
  (onBody : Later d (Program.later d) body body)

include onBody in
theorem later_function (keyword : Token) (name : Option Token) :
    Later d (Expr.later d) (function body keyword name) (function body keyword name) := by
  refine (later_want _).bind fun _ => (later_listed (later_want _) _ _).bind fun (params, _) => ?_
  refine (later_want _).bind fun _ => onBody.bind fun statements => later_freshId.bind fun n => ?_
  refine later_pure_of ?_
  cases name <;> rfl

include onExpression onBody in
theorem later_operandOf :
    Later d (Expr.later d) (operandOf expression body) (operandOf expression body) := by
  refine later_advance.bind fun t => ?_
  dsimp only [id_eq]
  cases isAtom : atom? t with
  | some node =>
    refine later_freshId.bind fun n => later_pure_of ?_
    unfold atom? at isAtom
    split at isAtom <;> cases isAtom <;> rfl
  | none =>
    dsimp only
    split
    · exact (onExpression _).bind fun _ => later_freshId.bind fun _ => later_pure _
    · exact (onExpression _).bind fun _ => later_freshId.bind fun _ => later_pure _
    · exact (onExpression _).bind fun _ => (later_want _).bind fun _ =>
        later_freshId.bind fun _ => later_pure _
    · exact later_function onBody t none
    · exact later_fail _ _

include onExpression in
theorem later_join (left : Expr) (t : Token) (joint : Joint) :
    Later d (Expr.later d) (join expression left t joint)
      (join expression (left.later d) t joint) := by
  cases joint with
  | assignment =>
    refine (onExpression _).bind fun value => ?_
    cases left with
    | reference id name =>
      exact later_freshId.bind fun n => later_pure (Expr.assignment n name value)
    | _ => exact later_fail _ _
  | logical level | binary level =>
    exact (onExpression _).bind fun _ => later_freshId.bind fun _ => later_pure _
  | step => exact later_freshId.bind fun _ => later_pure _
  | call =>
    refine (later_listed (onExpression _) _ _).bind fun (arguments, paren) =>
      later_freshId.bind fun n => later_pure_of ?_
    rw [Expr.later, Expr.relabel, Expr.relabelAll_eq_map]
    rfl

include onExpression in
theorem later_expressionStatement :
    Later d (Stmt.later d) (expressionStatement expression) (expressionStatement expression) :=
  (onExpression _).bind fun e => (later_want _).bind fun _ => later_pure (Stmt.expression e)

include onExpression in
theorem later_declaration :
    Later d (Stmt.later d) (declaration expression) (declaration expression) := by
  refine later_advance.bind fun _ => (later_want _).bind fun name =>
    (later_accept .equal).bind fun found => ?_
  cases found with
  | true =>
    refine Later.bind (F := Option.map (Expr.later d)) ?_ fun initializer =>
      (later_want _).bind fun _ => ?_
    · exact (onExpression _).map fun _ => rfl
    · cases initializer with
      | none => exact later_pure (Stmt.declaration name none)
      | some e => exact later_pure (Stmt.declaration name (some e))
  | false => exact (later_want _).bind fun _ => later_pure (Stmt.declaration name none)

include onBody onExpression in
theorem later_functionDeclaration :
    Later d (Stmt.later d) (functionDeclaration expression body)
      (functionDeclaration expression body) := by
  have got : Later d (Cursor.later d) get get := fun _ => rfl
  refine got.bind fun c => ?_
  have sameTokens : (c.later d).ahead = c.ahead := rfl
  rw [sameTokens]
  cases c.ahead.tail.head? with
  | none => exact later_expressionStatement onExpression
  | some next =>
    by_cases isName : next.kind = .identifier
    · simp only [isName, if_true]
      refine later_advance.bind fun keyword => later_advance.bind fun name => ?_
      exact (later_function onBody _ _).bind fun e => later_pure (Stmt.declaration name (some e))
    · simp only [isName, if_false]
      exact later_expressionStatement onExpression

include onExpression onStatement in
theorem later_ifElse :
    Later d (Stmt.later d) (ifElse expression statement) (ifElse expression statement) := by
  refine later_advance.bind fun _ => (later_want _).bind fun _ =>
    (onExpression _).bind fun condition => (later_want _).bind fun _ =>
    onStatement.bind fun thenBranch => (later_accept .elseWord).bind fun found => ?_
  cases found with
  | true =>
    refine Later.bind (F := Option.map (Stmt.later d)) ?_ fun elseBranch => later_pure_of ?_
    · exact onStatement.map fun _ => rfl
    · cases elseBranch <;> rfl
  | false => exact later_pure (Stmt.ifElse condition thenBranch none)

include onExpression onStatement in
theorem later_whileLoop :
    Later d (Stmt.later d) (whileLoop expression statement) (whileLoop expression statement) :=
  later_advance.bind fun _ => (later_want _).bind fun _ => (onExpression _).bind fun condition =>
    (later_want _).bind fun _ => onStatement.bind fun body =>
    later_pure (Stmt.whileLoop condition body none)

include onExpression in
theorem later_forInitializer :
    Later d (Option.map (Stmt.later d)) (forInitializer expression)
      (forInitializer expression) := by
  refine (later_accept .semicolon).bind fun found => ?_
  cases found with
  | true => exact later_pure none
  | false =>
    refine (later_check .varWord).bind fun found => ?_
    cases found with
    | true => exact (later_declaration onExpression).bind fun s => later_pure (some s)
    | false => exact (later_expressionStatement onExpression).bind fun s => later_pure (some s)

include onExpression onStatement in
theorem later_forLoop :
    Later d (Stmt.later d) (forLoop expression statement) (forLoop expression statement) := by
  refine later_advance.bind fun _ => (later_want _).bind fun _ =>
    (later_forInitializer onExpression).bind fun initializer =>
    (later_absentAt (onExpression _) _).bind fun condition => (later_want _).bind fun _ =>
    (later_absentAt (onExpression _) _).bind fun increment => (later_want _).bind fun _ =>
    onStatement.bind fun body => ?_
  cases condition with
  | some e =>
    refine later_pure_of ?_
    cases initializer <;> cases increment <;> rfl
  | none =>
    refine later_freshId.bind fun n => later_pure_of ?_
    cases initializer <;> cases increment <;> rfl

include onExpression in
theorem later_returnValue :
    Later d (Stmt.later d) (returnValue expression) (returnValue expression) := by
  refine later_advance.bind fun keyword => (later_absentAt (onExpression _) _).bind fun value =>
    (later_want _).bind fun _ => later_pure_of ?_
  cases value <;> rfl

include onExpression onStatement onBody in
theorem later_statementOf :
    Later d (Stmt.later d) (statementOf expression statement body)
      (statementOf expression statement body) := by
  refine later_peek.bind fun t => ?_
  dsimp only [id_eq]
  split
  · exact later_advance.bind fun _ => onBody.bind fun ss => later_pure (Stmt.block ss)
  · exact later_declaration onExpression
  · exact later_functionDeclaration onExpression onBody
  · exact later_ifElse onExpression onStatement
  · exact later_whileLoop onExpression onStatement
  · exact later_forLoop onExpression onStatement
  · exact later_advance.bind fun t => (later_want _).bind fun _ => later_pure (Stmt.breakLoop t)
  · exact later_advance.bind fun t => (later_want _).bind fun _ =>
      later_pure (Stmt.continueLoop t)
  · exact later_returnValue onExpression
  · exact later_expressionStatement onExpression

end

/-! ## All readers -/

/-- The readers of a depth do the same with later numbers. -/
structure LaterAt (d n : Nat) : Prop where
  expression : ∀ above, Later d (Expr.later d) (expression n above) (expression n above)
  chain : ∀ above left,
    Later d (Expr.later d) (chain n above left) (chain n above (left.later d))
  statement : Later d (Stmt.later d) (statement n) (statement n)
  body : Later d (Program.later d) (body n) (body n)

theorem laterAt (d n : Nat) : LaterAt d n := by
  induction n with
  | zero =>
    have deep {α : Type} {F : α → α} :
        Later d F (peek >>= fail .tooDeep) (peek >>= fail .tooDeep) :=
      later_peek.bind fun _ => later_fail _ _
    exact ⟨fun _ => deep, fun _ _ => deep, deep, deep⟩
  | succ n ih =>
    refine ⟨fun above => ?_, fun above left => ?_, ?_, ?_⟩
    · exact (later_operandOf ih.expression ih.body).bind fun left => ih.chain above left
    · refine later_peek.bind fun t => ?_
      dsimp only [id_eq]
      split
      · next joint _ =>
        by_cases tighter : above < joint.level
        · simp only [tighter, if_true]
          exact later_advance.bind fun t =>
            (later_join ih.expression left t joint).bind fun e => ih.chain above e
        · simp only [tighter, if_false]
          exact later_pure left
      · exact later_pure left
    · exact later_statementOf ih.expression ih.statement ih.body
    · refine later_peek.bind fun t => ?_
      dsimp only [id_eq]
      split
      · exact (later_want _).bind fun _ => later_pure []
      · exact ih.statement.bind fun s => ih.body.bind fun ss => later_pure (s :: ss)

theorem later_program (d depth count : Nat) :
    Later d (Program.later d) (program depth count) (program depth count) := by
  induction count with
  | zero => exact later_peek.bind fun _ => later_fail _ _
  | succ more ih =>
    refine (later_check .eof).bind fun found => ?_
    cases found with
    | true => exact later_pure []
    | false => exact (laterAt d depth).statement.bind fun s =>
        (later_after ih s).bind fun ss => later_pure (s :: ss)

end Reading

/-- With a later number for its first node a stream is read as before, with all numbers as much
later. -/
theorem Stream.program_later (stream : Stream) (nextId d : Nat) :
    stream.program (nextId + d) =
      match stream.program nextId with
      | (.ok p, m) => (.ok (Program.later d p), m + d)
      | (.error e, m) => (.error (e.later d), m + d) := by
  have same := Reading.later_program d stream.depth stream.depth
    ⟨stream.tokens, stream.stop, nextId⟩
  unfold Stream.program Stream.read EStateM.run
  rw [Cursor.later] at same
  rw [same]
  cases Reading.program stream.depth stream.depth ⟨stream.tokens, stream.stop, nextId⟩ with
  | ok p c => rfl
  | error e c => rfl

end Lox
