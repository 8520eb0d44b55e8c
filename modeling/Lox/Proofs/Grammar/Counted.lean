import Lox.Proofs.Grammar.Appended
import Lox.Proofs.Grammar.Numbers
import Lox.Proofs.Trees.Nodes

/-!
# How many numbers a derivation uses up

What is derived between two numbers has all of its nodes numbered apart between them. There are as
many numbers as there are nodes and assignments: the target of an assignment had one as an
expression. The expressions inside of another one are numbered before it.
-/

namespace Lox

/-- Nodes that are numbered apart, with one more number used up for each assignment. -/
structure Counted (nodes : List Expr) (low high : Nat) : Prop where
  apart : Apart (nodes.map Expr.number) low high
  count : low + nodes.length + nodes.countP Expr.isAssignment = high
  enclosed : ∀ outer ∈ nodes, ∀ inner ∈ outer.enclosed, inner.number < outer.number

namespace Counted

variable {nodes nodes' : List Expr} {low middle high : Nat}

theorem nil (low : Nat) : Counted [] low low := ⟨.nil low low, rfl, by simp⟩

theorem le (counted : Counted nodes low high) : low ≤ high := by
  have := counted.count
  omega

theorem append (first : Counted nodes low middle) (second : Counted nodes' middle high) :
    Counted (nodes ++ nodes') low high := by
  refine ⟨?_, ?_, fun outer member => ?_⟩
  · rw [List.map_append]
    exact first.apart.append second.apart first.le second.le
  · have := first.count
    have := second.count
    rw [List.length_append, List.countP_append]
    omega
  · rcases List.mem_append.1 member with member | member
    · exact first.enclosed outer member
    · exact second.enclosed outer member

/-- The order of the nodes has nothing to do with their numbers. -/
theorem perm (counted : Counted nodes low high) (same : nodes.Perm nodes') :
    Counted nodes' low high := by
  refine ⟨⟨?_, ?_, ?_⟩, ?_, fun outer member => counted.enclosed outer (same.mem_iff.2 member)⟩
  · exact (same.map _).nodup_iff.1 counted.apart.nodup
  · exact fun id member => counted.apart.low_le id ((same.map _).mem_iff.2 member)
  · exact fun id member => counted.apart.lt_high id ((same.map _).mem_iff.2 member)
  · rw [← same.length_eq, ← same.countP_eq]
    exact counted.count

private theorem outer {e : Expr} (used : Nat) (within : Counted e.enclosed (low + used) high)
    (isNumber : e.number = high) (isUsed : used = if e.isAssignment then 1 else 0) :
    Counted (e.enclosed ++ [e]) low (high + 1) := by
  have bound := within.le
  refine ⟨?_, ?_, fun outer member inner isInside => ?_⟩
  · rw [List.map_append, List.map_singleton, isNumber]
    have own : Apart [high] high (high + 1) := .single (Nat.le_refl _) (Nat.lt_succ_self _)
    have joined := within.apart.append own bound (Nat.le_succ _)
    exact joined.mono (Nat.le_add_right _ _) (Nat.le_refl _)
  · have := within.count
    rw [List.length_append, List.countP_append, List.length_singleton, List.countP_singleton]
    omega
  · rcases List.mem_append.1 member with member | member
    · exact within.enclosed outer member inner isInside
    · rw [List.mem_singleton.1 member] at isInside ⊢
      rw [isNumber]
      exact within.apart.lt_high _ (List.mem_map_of_mem isInside)

/-- An expression is numbered after those inside of it. -/
theorem node {e : Expr} (within : Counted e.enclosed low high) (isNumber : e.number = high)
    (plain : e.isAssignment = false) : Counted (e.enclosed ++ [e]) low (high + 1) :=
  within.outer 0 isNumber (by rw [plain]; rfl)

/-- Before what is inside of an assignment a number was used up for its target. -/
theorem assignment {name : Token} {value : Expr}
    (within : Counted (value.enclosed ++ [value]) (low + 1) high) :
    Counted ((Expr.assignment high name value).enclosed ++ [.assignment high name value])
      low (high + 1) :=
  outer 1 within rfl rfl

end Counted

namespace Grammar

theorem nodes_loop (first : Option Stmt) (condition : Expr) (body : Stmt)
    (increment : Option Expr) :
    (loop first condition body increment).nodes = Stmt.optionNodes first ++
      ((condition.enclosed ++ [condition]) ++ (body.nodes ++ Expr.optionNodes increment)) := by
  cases first <;> simp [loop, Stmt.nodes, Stmt.allNodes, Stmt.optionNodes]

theorem counted_join {tier : Tier} {left right : Expr} {operator : Token} {i j k : Nat}
    (first : Counted (left.enclosed ++ [left]) i j)
    (second : Counted (right.enclosed ++ [right]) j k) :
    Counted ((tier.join k left operator right).enclosed ++ [tier.join k left operator right])
      i (k + 1) := by
  have within := first.append second
  unfold Tier.join
  by_cases isLogical : tier.isLogical = true
  · rw [if_pos isLogical]
    exact .node (e := .logical k left operator right) within rfl rfl
  · rw [if_neg isLogical]
    exact .node (e := .binary k left operator right) within rfl rfl

mutual

theorem Expression.counted {tier : Tier} {ts : List Token} {e : Expr} {i j : Nat} :
    Expression tier ts e i j → Counted (e.enclosed ++ [e]) i j
  | .tighter inner => inner.counted
  | .assignment _ _ right => right.counted.assignment
  | .operator _ first second => counted_join first.counted second.counted
  | .unary _ operand | .step _ operand | .grouping _ _ operand => by
    refine .node ?_ rfl rfl
    exact operand.counted
  | .callWithout _ _ function => by
    refine .node ?_ rfl rfl
    exact function.counted.append (.nil _)
  | .call _ _ function items _ => by
    refine .node ?_ rfl rfl
    exact function.counted.append items.counted
  | .value _ | .yes _ | .no _ | .reference _ => by
    refine .node ?_ rfl rfl
    exact .nil i
  | .lambda _ function => by
    refine .node ?_ rfl rfl
    exact function.counted

theorem Items.counted {ts : List Token} {es : List Expr} {i j : Nat} :
    Items ts es i j → Counted (Expr.allNodes es) i j
  | .one item => item.counted.append (.nil _)
  | .more item _ rest => item.counted.append rest.counted

theorem Function.counted {ts params : List Token} {body : List Stmt} {i j : Nat} :
    Function ts params body i j → Counted (Stmt.allNodes body) i j
  | .intro _ _ _ _ _ statements => statements.counted

theorem Clause.counted {ts : List Token} {e : Option Expr} {i j : Nat} :
    Clause ts e i j → Counted (Expr.optionNodes e) i j
  | .absent => .nil _
  | .present expression => expression.counted

theorem First.counted {ts : List Token} {s : Option Stmt} {i j : Nat} :
    First ts s i j → Counted (Stmt.optionNodes s) i j
  | .absent _ => .nil _
  | .declared _ declaration => declaration.counted
  | .expression _ value => value.counted

theorem Statement.counted {dangling : Bool} {ts : List Token} {s : Stmt} {i j : Nat} :
    Statement dangling ts s i j → Counted s.nodes i j
  | .expression _ value | .initialized _ _ _ _ value => value.counted
  | .declared .. | .breakLoop .. | .continueLoop .. => .nil _
  | .function _ _ function => by
    refine .node ?_ rfl rfl
    exact function.counted
  | .block _ _ content => content.counted
  | .ifOnly _ _ _ test branch => test.counted.append (branch.counted.append (.nil _))
  | .ifElse _ _ _ _ test branch other =>
    test.counted.append (branch.counted.append other.counted)
  | .whileLoop _ _ _ test body => test.counted.append (body.counted.append (.nil _))
  | .forLoop _ _ _ _ start test onward body => by
    rw [nodes_loop]
    -- The increment is read before the body and walked after it.
    have round := (onward.counted.append body.counted).perm List.perm_append_comm
    exact start.counted.append (test.counted.append round)
  | .endlessLoop (l := l) _ _ _ _ start onward body => by
    rw [nodes_loop]
    have round := (onward.counted.append body.counted).perm List.perm_append_comm
    have condition : Counted [.literal l (.bool true)] l (l + 1) :=
      Counted.node (e := .literal l (.bool true)) (.nil l) rfl rfl
    exact start.counted.append ((round.append condition).perm List.perm_append_comm)
  | .returnValue _ _ result => result.counted

theorem Statements.counted {ts : List Token} {ss : List Stmt} {i j : Nat} :
    Statements ts ss i j → Counted (Stmt.allNodes ss) i j
  | .nil => .nil _
  | .cons first others => first.counted.append others.counted

end

end Grammar

/-! ## Streams -/

section
variable {stream : Stream} (isStop : stream.stop.kind = .eof) {n m : Nat}
include isStop

/-- A program that is read has its nodes numbered from the given number on. -/
theorem Stream.counted_program {p : Program} (isProgram : stream.program n = (.ok p, m)) :
    Counted p.nodes n m := by
  obtain ⟨_, _, _, derived⟩ := Grammar.derived_of_program isStop isProgram
  exact derived.counted

/-- So have the statements before an error, and the error itself may use up more numbers. -/
theorem Stream.counted_before {e : SyntaxError} (refused : stream.program n = (.error e, m)) :
    ∃ k, Counted e.before.nodes n k ∧ k ≤ m := by
  obtain ⟨_, _, k, _, derived, le⟩ := Stream.statements_of_error isStop refused
  exact ⟨k, derived.counted, le⟩

/-- An expression that is read has its nodes numbered from the given number on. -/
theorem Stream.counted_expression {e : Expr} (isExpression : stream.expression n = (.ok e, m)) :
    Counted e.nodes n m := by
  obtain ⟨_, _, _, derived⟩ := Grammar.derived_of_expression isStop isExpression
  exact derived.counted

omit isStop in
/-- Before an error in an expression there are no statements. -/
theorem Stream.before_expression {e : SyntaxError} (refused : stream.expression n = (.error e, m)) :
    e.before = [] ∧ n ≤ m := by
  unfold Stream.expression Stream.read EStateM.run at refused
  split at refused
  · cases refused
  · next ran =>
    cases refused
    have noStatements := Reading.keeps_no_statements.relatedAt (.inl rfl) stream.depth
    have none := Reading.keeps_no_statements.loneExpression noStatements _ _ _ ran
    have onward := Reading.onward.loneExpression (Reading.onward.relatedAt (.inl rfl) stream.depth)
      ⟨stream.tokens, stream.stop, n⟩
    rw [ran] at onward
    exact ⟨none, onward⟩

end

end Lox
