import Lox.Tree.OfTokens

/-!
# Relations between readers

All readers are put together from a few: those that look at the cursor, take a token, give out a
number or fail. A relation that holds of these, and that is kept where a reader goes on after
another one, holds of all readers of a depth. If a reader that gives up is related to every other
one, it also holds between readers of a depth and readers of a greater one.
-/

namespace Lox.Reading

/-- A relation between readers that is kept by all ways to put them together. -/
structure Congruence (R : (α : Type) → Reading α → Reading α → Prop) : Prop where
  value : ∀ {α : Type} (a : α), R α (pure a) (pure a)
  bind : ∀ {α β : Type} {x x' : Reading α} {f f' : α → Reading β}, R α x x' →
    (∀ a, R β (f a) (f' a)) → R β (x >>= f) (x' >>= f')
  cursor : R Cursor get get
  advance : R Token advance advance
  freshId : R Nat freshId freshId
  fail : ∀ {α : Type} (cause : SyntaxError.Cause) (found : Token),
    R α (fail cause found) (fail cause found)

namespace Congruence

variable {R : (α : Type) → Reading α → Reading α → Prop} (kept : Congruence R) {α β : Type}
include kept

/-! ## Readers in general -/

theorem map {x x' : Reading α} (f : α → β) (related : R α x x') : R β (f <$> x) (f <$> x') :=
  kept.bind related fun a => kept.value (f a)

theorem peek : R Token peek peek := kept.bind kept.cursor fun _ => kept.value _

theorem check (kind : Kind) : R Bool (check kind) (check kind) :=
  kept.bind kept.peek fun _ => kept.value _

theorem accept (kind : Kind) : R Bool (accept kind) (accept kind) := by
  refine kept.bind (kept.check kind) fun found => ?_
  cases found with
  | true => exact kept.bind kept.advance fun _ => kept.value _
  | false => exact kept.value _

theorem want (wanted : Wanted) : R Token (want wanted) (want wanted) := by
  refine kept.bind kept.peek fun t => ?_
  by_cases right : t.kind = wanted.kind
  · simp only [right, if_true]
    exact kept.advance
  · simp only [right, if_false]
    exact kept.fail _ _

section
variable {item item' : Reading α} (items : R α item item')
include items

theorem commaSeparated (tooMany : SyntaxError.Cause) (count : Nat) :
    R (List α) (commaSeparated tooMany item count) (commaSeparated tooMany item' count) := by
  induction count with
  | zero => exact kept.bind kept.peek fun _ => kept.fail _ _
  | succ more ih =>
    refine kept.bind items fun x => kept.bind (kept.accept .comma) fun found => ?_
    cases found with
    | true => exact kept.bind ih fun _ => kept.value _
    | false => exact kept.value _

theorem listed (tooMany : SyntaxError.Cause) (closing : Wanted) :
    R (List α × Token) (listed tooMany closing item) (listed tooMany closing item') := by
  refine kept.bind (kept.check closing.kind) fun found => ?_
  cases found with
  | true => exact kept.bind (kept.value []) fun _ => kept.bind (kept.want closing) fun _ =>
      kept.value _
  | false =>
    exact kept.bind (kept.commaSeparated items _ _) fun _ =>
      kept.bind (kept.want closing) fun _ => kept.value _

theorem absentAt (kind : Kind) :
    R (Option α) (absentAt kind item) (absentAt kind item') := by
  refine kept.bind (kept.check kind) fun found => ?_
  cases found with
  | true => exact kept.value none
  | false => exact kept.bind items fun _ => kept.value _

end

/-! ## Parts with given readers -/

section

set_option linter.unusedSectionVars false

variable {expression expression' : Nat → Reading Expr} {statement statement' : Reading Stmt}
  {body body' : Reading (List Stmt)}
  (onExpression : ∀ above, R Expr (expression above) (expression' above))
  (onStatement : R Stmt statement statement') (onBody : R (List Stmt) body body')

include onBody in
theorem function (keyword : Token) (name : Option Token) :
    R Expr (function body keyword name) (function body' keyword name) := by
  refine kept.bind (kept.want _) fun _ =>
    kept.bind (kept.listed (kept.want .parameterName) _ _) fun _ => ?_
  exact kept.bind (kept.want _) fun _ => kept.bind onBody fun _ =>
    kept.bind kept.freshId fun _ => kept.value _

include onExpression onBody in
theorem operandOf : R Expr (operandOf expression body) (operandOf expression' body') := by
  refine kept.bind kept.advance fun t => ?_
  cases atom? t with
  | some node => exact kept.bind kept.freshId fun _ => kept.value _
  | none =>
    dsimp only
    split
    · exact kept.bind (onExpression _) fun _ => kept.bind kept.freshId fun _ => kept.value _
    · exact kept.bind (onExpression _) fun _ => kept.bind kept.freshId fun _ => kept.value _
    · exact kept.bind (onExpression _) fun _ => kept.bind (kept.want _) fun _ =>
        kept.bind kept.freshId fun _ => kept.value _
    · exact kept.function onBody t none
    · exact kept.fail _ _

include onExpression in
theorem join (left : Expr) (t : Token) (joint : Joint) :
    R Expr (join expression left t joint) (join expression' left t joint) := by
  cases joint with
  | assignment =>
    refine kept.bind (onExpression _) fun value => ?_
    cases left with
    | reference id name => exact kept.bind kept.freshId fun _ => kept.value _
    | _ => exact kept.fail _ _
  | logical level | binary level =>
    exact kept.bind (onExpression _) fun _ => kept.bind kept.freshId fun _ => kept.value _
  | step => exact kept.bind kept.freshId fun _ => kept.value _
  | call =>
    exact kept.bind (kept.listed (onExpression _) _ _) fun _ =>
      kept.bind kept.freshId fun _ => kept.value _

include onExpression in
theorem expressionStatement :
    R Stmt (expressionStatement expression) (expressionStatement expression') :=
  kept.bind (onExpression _) fun _ => kept.bind (kept.want _) fun _ => kept.value _

include onExpression in
theorem declaration : R Stmt (declaration expression) (declaration expression') := by
  refine kept.bind kept.advance fun _ => kept.bind (kept.want _) fun _ =>
    kept.bind (kept.accept .equal) fun found => ?_
  cases found with
  | true =>
    exact kept.bind (kept.map some (onExpression _)) fun _ =>
      kept.bind (kept.want _) fun _ => kept.value _
  | false =>
    exact kept.bind (kept.value none) fun _ => kept.bind (kept.want _) fun _ => kept.value _

include onExpression onBody in
theorem functionDeclaration :
    R Stmt (functionDeclaration expression body) (functionDeclaration expression' body') := by
  refine kept.bind kept.cursor fun c => ?_
  split
  · split
    · refine kept.bind kept.advance fun _ => kept.bind kept.advance fun _ => ?_
      exact kept.bind (kept.function onBody _ _) fun _ => kept.value _
    · exact kept.expressionStatement onExpression
  · exact kept.expressionStatement onExpression

include onExpression onStatement in
theorem ifElse : R Stmt (ifElse expression statement) (ifElse expression' statement') := by
  refine kept.bind kept.advance fun _ => kept.bind (kept.want _) fun _ =>
    kept.bind (onExpression _) fun _ => kept.bind (kept.want _) fun _ =>
    kept.bind onStatement fun _ => kept.bind (kept.accept .elseWord) fun found => ?_
  cases found with
  | true => exact kept.bind (kept.map some onStatement) fun _ => kept.value _
  | false => exact kept.bind (kept.value none) fun _ => kept.value _

include onExpression onStatement in
theorem whileLoop :
    R Stmt (whileLoop expression statement) (whileLoop expression' statement') :=
  kept.bind kept.advance fun _ => kept.bind (kept.want _) fun _ =>
    kept.bind (onExpression _) fun _ => kept.bind (kept.want _) fun _ =>
    kept.bind onStatement fun _ => kept.value _

include onExpression in
theorem forInitializer :
    R (Option Stmt) (forInitializer expression) (forInitializer expression') := by
  refine kept.bind (kept.accept .semicolon) fun found => ?_
  cases found with
  | true => exact kept.value _
  | false =>
    refine kept.bind (kept.check .varWord) fun found => ?_
    cases found with
    | true => exact kept.bind (kept.declaration onExpression) fun _ => kept.value _
    | false => exact kept.bind (kept.expressionStatement onExpression) fun _ => kept.value _

include onExpression onStatement in
theorem forLoop : R Stmt (forLoop expression statement) (forLoop expression' statement') := by
  refine kept.bind kept.advance fun _ => kept.bind (kept.want _) fun _ =>
    kept.bind (kept.forInitializer onExpression) fun first =>
    kept.bind (kept.absentAt (onExpression _) _) fun condition => kept.bind (kept.want _) fun _ =>
    kept.bind (kept.absentAt (onExpression _) _) fun increment => kept.bind (kept.want _) fun _ =>
    kept.bind onStatement fun body => ?_
  cases condition with
  | some e => exact kept.bind (kept.value e) fun _ => kept.value _
  | none =>
    dsimp only
    refine kept.bind kept.freshId fun _ => ?_
    exact kept.bind (kept.value _) fun _ => kept.value _

include onExpression in
theorem returnValue : R Stmt (returnValue expression) (returnValue expression') :=
  kept.bind kept.advance fun _ => kept.bind (kept.absentAt (onExpression _) _) fun _ =>
    kept.bind (kept.want _) fun _ => kept.value _

include onExpression onStatement onBody in
theorem statementOf :
    R Stmt (statementOf expression statement body) (statementOf expression' statement' body') := by
  refine kept.bind kept.peek fun t => ?_
  split
  · exact kept.bind kept.advance fun _ => kept.bind onBody fun _ => kept.value _
  · exact kept.declaration onExpression
  · exact kept.functionDeclaration onExpression onBody
  · exact kept.ifElse onExpression onStatement
  · exact kept.whileLoop onExpression onStatement
  · exact kept.forLoop onExpression onStatement
  · exact kept.bind kept.advance fun _ => kept.bind (kept.want _) fun _ => kept.value _
  · exact kept.bind kept.advance fun _ => kept.bind (kept.want _) fun _ => kept.value _
  · exact kept.returnValue onExpression
  · exact kept.expressionStatement onExpression

end

end Congruence

/-! ## All readers -/

/-- The readers of one depth are related to those of another. -/
structure RelatedAt (R : (α : Type) → Reading α → Reading α → Prop) (n m : Nat) : Prop where
  expression : ∀ above, R Expr (expression n above) (expression m above)
  chain : ∀ above left, R Expr (chain n above left) (chain m above left)
  statement : R Stmt (statement n) (statement m)
  body : R (List Stmt) (body n) (body m)

/-- All readers of a depth are related to those of a greater one, or at least to themselves. -/
theorem Congruence.relatedAt {R : (α : Type) → Reading α → Reading α → Prop}
    (kept : Congruence R) {more : Nat}
    (deeper : more = 0 ∨
      ∀ {α : Type} (y : Reading α), R α (Reading.peek >>= Reading.fail .tooDeep) y)
    (n : Nat) : RelatedAt R n (n + more) := by
  induction n with
  | zero =>
    rcases deeper with rfl | givesUp
    · have same {α : Type} : R α (Reading.peek >>= Reading.fail .tooDeep)
          (Reading.peek >>= Reading.fail .tooDeep) := kept.bind kept.peek fun _ => kept.fail _ _
      exact ⟨fun _ => same, fun _ _ => same, same, same⟩
    · exact ⟨fun _ => givesUp _, fun _ _ => givesUp _, givesUp _, givesUp _⟩
  | succ n ih =>
    rw [Nat.add_right_comm]
    refine ⟨fun above => ?_, fun above left => ?_, ?_, ?_⟩
    · exact kept.bind (kept.operandOf ih.expression ih.body) fun left => ih.chain above left
    · refine kept.bind kept.peek fun t => ?_
      split
      · next joint _ =>
        by_cases tighter : above < joint.level
        · simp only [tighter, if_true]
          exact kept.bind kept.advance fun t =>
            kept.bind (kept.join ih.expression left t joint) fun e => ih.chain above e
        · simp only [tighter, if_false]
          exact kept.value left
      · exact kept.value left
    · exact kept.statementOf ih.expression ih.statement ih.body
    · refine kept.bind kept.peek fun t => ?_
      dsimp only
      split
      · exact kept.bind (kept.want _) fun _ => kept.value _
      · exact kept.bind ih.statement fun _ => kept.bind ih.body fun _ => kept.value _

/-- The readers of a lone expression are related if those of expressions are. -/
theorem Congruence.loneExpression {R : (α : Type) → Reading α → Reading α → Prop}
    (kept : Congruence R) {n m : Nat} (related : RelatedAt R n m) :
    R Expr (loneExpression n) (loneExpression m) := by
  refine kept.bind (related.expression _) fun e => kept.bind (kept.check .eof) fun found => ?_
  cases found with
  | true => exact kept.value e
  | false => exact kept.bind kept.peek fun _ => kept.fail _ _

end Lox.Reading
