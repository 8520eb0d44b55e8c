import Lox.Proofs.Grammar.Reads

/-!
# What is read is derived

Every reader that succeeds has taken tokens from which the grammar derives the tree it returns. An
expression read above a level belongs to the tier of that level and is followed by nothing that
binds tighter; a dangling statement is not followed by an `else`.
-/

namespace Lox.Grammar

open Reading

variable {stop : Token}

/-! ## Tiers by number -/

/-- The place of a tier among all of them, the loosest one first. -/
def Tier.rank : Tier → Nat
  | expression => 0
  | or => 1
  | and => 2
  | equality => 3
  | comparison => 4
  | term => 5
  | factor => 6
  | unary => 7
  | postfixed => 8
  | primary => 9

theorem Tier.rank_next {tier : Tier} (below : tier.rank < 9) : tier.next.rank = tier.rank + 1 := by
  cases tier <;> first | rfl | exact absurd below (by decide)

theorem Tier.eq_of_rank {tier tier' : Tier} (same : tier.rank = tier'.rank) : tier = tier' := by
  cases tier <;> cases tier' <;> first | rfl | exact absurd same (by decide)

/-- An expression of a tier is one of every looser tier. -/
theorem Expression.loosen {tier tier' : Tier} {ts : List Token} {e : Expr} {i j : Nat}
    (derived : Expression tier ts e i j) (looser : tier'.rank ≤ tier.rank) :
    Expression tier' ts e i j := by
  by_cases same : tier'.rank = tier.rank
  · rw [Tier.eq_of_rank same]; exact derived
  · have bound : tier.rank ≤ 9 := by cases tier <;> decide
    have onward : tier'.next.rank = tier'.rank + 1 := Tier.rank_next (by omega)
    exact .tighter (derived.loosen (by omega))
termination_by tier.rank - tier'.rank

/-- The tier of the expressions that are read above a level. -/
def Tier.above : Nat → Tier
  | 0 => expression
  | 1 => or
  | 2 => and
  | 3 => equality
  | 4 => comparison
  | 5 => term
  | 6 => factor
  | _ => unary

theorem Tier.rank_above : (level : Nat) → (Tier.above level).rank = min level 7
  | 0 | 1 | 2 | 3 | 4 | 5 | 6 => rfl
  | level + 7 => (Nat.min_eq_right (Nat.le_add_left 7 level)).symm

/-- The greatest level of a token that may go on from an expression of a tier. -/
def Tier.reach : Tier → Nat
  | expression => 0
  | or => Level.or
  | and => Level.and
  | equality => Level.equality
  | comparison => Level.comparison
  | term => Level.term
  | factor => Level.factor
  | unary => Level.unary
  | postfixed | primary => Level.call

/-- A token does not bind an operand more tightly than a level. -/
def Stops (above : Nat) (kind : Kind) : Prop :=
  ∀ joint, kind.joint? = some joint → joint.level ≤ above

theorem Stops.mono {low high : Nat} {kind : Kind} (stops : Stops low kind) (le : low ≤ high) :
    Stops high kind :=
  fun joint found => Nat.le_trans (stops joint found) le

/-- No token binds more tightly than a call. -/
theorem stops_call (kind : Kind) : Stops Level.call kind := by
  intro joint found
  cases kind <;> simp [Kind.joint?] at found <;> subst found <;> decide

/-- A token joins two operands at a level exactly if it is an operator of the tier of that level. -/
theorem operator_of_joint (logical : Bool) {kind : Kind} {level : Nat}
    (found : kind.joint? = some (if logical then .logical level else .binary level)) :
    ∃ tier : Tier, kind ∈ tier.operators ∧ tier.isLogical = logical ∧ tier.reach = level ∧
      tier.rank + 1 = level ∧ Tier.above level = tier.next := by
  cases logical <;> cases kind <;> simp [Kind.joint?] at found <;> subst found
  · exact ⟨.term, by decide, rfl, rfl, rfl, rfl⟩
  · exact ⟨.term, by decide, rfl, rfl, rfl, rfl⟩
  · exact ⟨.factor, by decide, rfl, rfl, rfl, rfl⟩
  · exact ⟨.factor, by decide, rfl, rfl, rfl, rfl⟩
  · exact ⟨.equality, by decide, rfl, rfl, rfl, rfl⟩
  · exact ⟨.equality, by decide, rfl, rfl, rfl, rfl⟩
  · exact ⟨.comparison, by decide, rfl, rfl, rfl, rfl⟩
  · exact ⟨.comparison, by decide, rfl, rfl, rfl, rfl⟩
  · exact ⟨.comparison, by decide, rfl, rfl, rfl, rfl⟩
  · exact ⟨.comparison, by decide, rfl, rfl, rfl, rfl⟩
  · exact ⟨.and, by decide, rfl, rfl, rfl, rfl⟩
  · exact ⟨.or, by decide, rfl, rfl, rfl, rfl⟩

theorem kind_of_assignment {kind : Kind} (found : kind.joint? = some .assignment) :
    kind = .equal := by
  cases kind <;> simp [Kind.joint?] at found
  rfl

theorem kind_of_step {kind : Kind} (found : kind.joint? = some .step) :
    kind = .plusPlus ∨ kind = .minusMinus := by
  cases kind <;> simp [Kind.joint?] at found <;> simp

theorem kind_of_call {kind : Kind} (found : kind.joint? = some .call) : kind = .leftParen := by
  cases kind <;> simp [Kind.joint?] at found
  rfl

/-- Only a name alone is read as a reference. -/
theorem Expression.of_reference {tier : Tier} {ts : List Token} {e : Expr} {name : Token}
    {id i j : Nat} :
    Expression tier ts e i j → e = .reference id name →
      ts = [name] ∧ name.kind = .identifier ∧ id = i ∧ j = i + 1
  | .tighter inner, same => inner.of_reference same
  | .operator _ _ _, same => by
    unfold Tier.join at same
    split at same <;> cases same
  | .reference isName, same => by cases same; exact ⟨rfl, isName, rfl, rfl⟩
  | .assignment .., same | .unary .., same | .step .., same | .callWithout .., same
  | .call .., same | .value .., same | .yes .., same | .no .., same | .grouping .., same
  | .lambda .., same => nomatch same

/-! ## What readers of each kind read -/

/-- Readers of expressions above each level read expressions of its tier, as far as they go. -/
def ReadsExpressions (stop : Token) (expression : Nat → Reading Expr) : Prop :=
  ∀ above ≤ Level.unary, Reads stop (fun ts e i j rest =>
    Expression (Tier.above above) ts e i j ∧ Stops above (rest.headD stop).kind) (expression above)

/-- A reader of statements reads statements; after a dangling one there is no `else`. -/
def ReadsStatements (stop : Token) (statement : Reading Stmt) : Prop :=
  Reads stop (fun ts s i j rest => ∃ dangling, Statement dangling ts s i j ∧
    (dangling = true → (rest.headD stop).kind ≠ .elseWord)) statement

/-- A reader of bodies reads statements and a closing brace. -/
def ReadsBodies (stop : Token) (body : Reading (List Stmt)) : Prop :=
  Reads stop (fun ts ss i j _ => ∃ us closing, ts = us ++ [closing] ∧
    closing.kind = .rightBrace ∧ Statements us ss i j) body

section Parts
variable (isStop : stop.kind = .eof)
  {expression : Nat → Reading Expr} (readsExpression : ReadsExpressions stop expression)
  {statement : Reading Stmt} (readsStatement : ReadsStatements stop statement)
  {body : Reading (List Stmt)} (readsBody : ReadsBodies stop body)

/-! ## Functions and operands -/

include isStop in
private theorem names_reads (tooMany : SyntaxError.Cause) (count : Nat) :
    Reads stop (fun ts names i j _ => (Names ts names ∧ i = j) ∧ names.length ≤ count)
      (commaSeparated tooMany (want .parameterName) count) := by
  refine commaSeparated_reads isStop (P := fun ts t i j => ts = [t] ∧ t.kind = .identifier ∧ i = j)
    (Q := fun ts names i j => Names ts names ∧ i = j) ?_ ?_ (want_reads isStop .parameterName) tooMany count
  · rintro ts name i j ⟨rfl, isName, rfl⟩
    exact ⟨.one isName, rfl⟩
  · rintro ts name i j comma us names k ⟨rfl, isName, rfl⟩ isComma ⟨names_of, rfl⟩
    exact ⟨.more isName isComma names_of, rfl⟩

include isStop in
private theorem parameters_reads : Reads stop (fun ts found i j _ => ∃ us, ts = us ++ [found.2] ∧
    found.2.kind = .rightParen ∧ Parameters us found.1 ∧ i = j)
    (listed .tooManyParameters .parametersEnd (want .parameterName)) := by
  intro ahead i found c' h
  obtain ⟨_, rest, j, rfl, rfl, us, rfl, isClosing, parameters⟩ :=
    listed_reads isStop .parametersEnd (names_reads isStop _ _) h
  refine ⟨_, rest, j, rfl, rfl, us, rfl, isClosing, ?_⟩
  rcases parameters with ⟨rfl, none, same⟩ | ⟨⟨names_of, same⟩, few⟩
  · rw [none]; exact ⟨.none, same⟩
  · exact ⟨.some names_of few, same⟩

include isStop readsBody in
theorem function_reads (keyword : Token) (name : Option Token) :
    Reads stop (fun ts e i j _ => ∃ params ss k, Function ts params ss i k ∧ j = k + 1 ∧
      e = .lambda k keyword params ss name) (function body keyword name) := by
  intro ahead i e c' h
  simp only [function, bind_eq_ok, pure_eq_ok] at h
  obtain ⟨opening, _, open', ⟨params, closing⟩, _, list, start, _, start', ss, _, content, id, _,
    fresh, rfl, rfl⟩ := h
  obtain ⟨_, rest, _, rfl, rfl, rfl, isOpening, rfl⟩ := want_reads isStop _ open'
  obtain ⟨_, rest, _, rfl, rfl, us, rfl, isClosing, parameters, rfl⟩ :=
    parameters_reads isStop list
  obtain ⟨_, rest, _, rfl, rfl, rfl, isStart, rfl⟩ := want_reads isStop _ start'
  obtain ⟨_, rest, k, rfl, rfl, vs, stop', rfl, isStop', statements⟩ := readsBody content
  cases fresh
  have isOpening : opening.kind = .leftParen := by cases name <;> exact isOpening
  exact ⟨_, rest, k + 1, by simp, rfl, params, ss, k,
    .intro isOpening isClosing isStart isStop' parameters statements, rfl, rfl⟩

/-- An operand is a primary expression, or a unary one as far as it goes. -/
def Operand (stop : Token) (ts : List Token) (e : Expr) (i j : Nat) (rest : List Token) : Prop :=
  Expression .primary ts e i j ∨
    Expression .unary ts e i j ∧ Stops Level.unary (rest.headD stop).kind

private theorem atom_primary {t : Token} {node : Nat → Expr} (found : atom? t = some node) (i : Nat) :
    Expression .primary [t] (node i) i (i + 1) := by
  unfold atom? at found
  split at found
  · next isValue => cases found; exact .value (.inl isValue)
  · next isValue => cases found; exact .value (.inr (.inl isValue))
  · next isValue => cases found; exact .value (.inr (.inr isValue))
  · next isYes => cases found; exact .yes isYes
  · next isNo => cases found; exact .no isNo
  · next isName => cases found; exact .reference isName
  · cases found

include isStop readsExpression readsBody in
theorem operandOf_reads : Reads stop (Operand stop) (operandOf expression body) := by
  intro ahead i e c' h
  simp only [operandOf, bind_of_ok (advance_eq _ _ _)] at h
  -- The mark of the end starts no operand, so that a token has been taken.
  obtain ⟨t, rest, rfl⟩ : ∃ t rest, ahead = t :: rest := by
    cases ahead with
    | nil => simp [atom?, isStop, fail_ne_ok] at h
    | cons t rest => exact ⟨t, rest, rfl⟩
  simp only [List.headD_cons, List.tail_cons] at h
  cases found : atom? t with
  | some node =>
    simp only [found, bind_eq_ok, pure_eq_ok] at h
    obtain ⟨id, _, fresh, rfl, rfl⟩ := h
    cases fresh
    exact ⟨[t], rest, i + 1, rfl, rfl, .inl (atom_primary found i)⟩
  | none =>
    simp only [found] at h
    have unary : t.kind = .minus ∨ t.kind = .bang → (do
        let right ← expression Level.unary
        return .unary (← freshId) t right : Reading Expr) ⟨rest, stop, i⟩ = .ok e c' →
        ∃ ts rest' j, t :: rest = ts ++ rest' ∧ c' = ⟨rest', stop, j⟩ ∧
          Operand stop ts e i j rest' := by
      intro isOperator h
      simp only [bind_eq_ok, pure_eq_ok] at h
      obtain ⟨right, _, operand, id, _, fresh, rfl, rfl⟩ := h
      obtain ⟨ts, rest, j, rfl, rfl, derived, stops⟩ :=
        readsExpression _ (Nat.le_refl _) operand
      cases fresh
      exact ⟨t :: ts, rest, j + 1, rfl, rfl, .inr ⟨.unary isOperator derived, stops⟩⟩
    cases isKind : t.kind with
    | minus => simp only [isKind] at h; exact unary (.inl isKind) h
    | bang => simp only [isKind] at h; exact unary (.inr isKind) h
    | leftParen =>
      simp only [isKind, bind_eq_ok, pure_eq_ok] at h
      obtain ⟨inner, _, content, closing, _, close, id, _, fresh, rfl, rfl⟩ := h
      obtain ⟨ts, rest, j, rfl, rfl, derived, _⟩ := readsExpression _ (Nat.zero_le _) content
      obtain ⟨_, rest, _, rfl, rfl, rfl, isClosing, rfl⟩ := want_reads isStop _ close
      cases fresh
      exact ⟨t :: (ts ++ [closing]), rest, j + 1, by simp, rfl,
        .inl (.grouping isKind isClosing derived)⟩
    | funWord =>
      simp only [isKind] at h
      obtain ⟨ts, rest, _, rfl, rfl, params, ss, k, derived, rfl, rfl⟩ :=
        function_reads isStop readsBody t none h
      exact ⟨t :: ts, rest, k + 1, rfl, rfl, .inl (.lambda isKind derived)⟩
    | _ => simp only [isKind] at h; exact absurd h fail_ne_ok

/-! ## What is joined to an operand -/

include isStop readsExpression in
private theorem arguments_reads : Reads stop (fun ts found i j _ => ∃ us, ts = us ++ [found.2] ∧
    found.2.kind = .rightParen ∧ (us = [] ∧ found.1 = [] ∧ i = j ∨
      Items us found.1 i j ∧ found.1.length ≤ maxArguments))
    (listed .tooManyArguments .argumentsEnd (expression Level.none)) := by
  refine listed_reads isStop .argumentsEnd ?_
  refine commaSeparated_reads isStop (P := fun ts e i j => Expression .expression ts e i j)
    (Q := fun ts es i j => Items ts es i j) .one .more ?_ _ _
  intro ahead i e c' h
  obtain ⟨ts, rest, j, place, place', derived, _⟩ := readsExpression _ (Nat.zero_le _) h
  exact ⟨ts, rest, j, place, place', derived⟩

/-- The levels at which tokens join two operands, and the places of their tiers. -/
private theorem rank_le_of_reach {tier : Tier} {rank : Nat} (within : rank + 1 ≤ tier.reach)
    (below : rank ≤ 7) : rank ≤ tier.rank := by
  cases tier <;> simp [Tier.reach, Tier.rank, Level.or, Level.and, Level.equality,
    Level.comparison, Level.term, Level.factor, Level.unary, Level.call] at * <;> omega

private theorem rank_of_reach_step {tier : Tier} (within : Level.step ≤ tier.reach) :
    Tier.postfixed.rank ≤ tier.rank := by
  cases tier <;> first | decide | exact absurd within (by decide)

/-- What has been joined so far, and what follows it. -/
def Joined (stop : Token) (above : Nat) (ts : List Token) (e : Expr) (start : Nat) (c : Cursor) :
    List Token → Prop :=
  fun ahead => ∃ us rest j tier, ahead = us ++ rest ∧ c = ⟨rest, stop, j⟩ ∧
    Expression tier (ts ++ us) e start j ∧ Stops tier.reach (rest.headD stop).kind ∧
    (Tier.above above).rank ≤ tier.rank

include readsExpression in
private theorem operator_reads {l : Bool} {tier : Tier} {above level : Nat}
    {ts ahead : List Token} {left e : Expr} {start i : Nat} {t : Token} {c' : Cursor}
    (derived : Expression tier ts left start i)
    (found : t.kind.joint? = some (if l then .logical level else .binary level))
    (tight : above < level) (within : level ≤ tier.reach)
    (h : (do
      let right ← expression level
      let id ← freshId
      return if l then .logical id left t right else .binary id left t right : Reading Expr)
      ⟨ahead, stop, i⟩ = .ok e c') :
    Joined stop above ts e start c' (t :: ahead) := by
  obtain ⟨tier', isOperator, isLogical, reach, rank, next⟩ := operator_of_joint l found
  have below : level ≤ 8 := by
    rw [← reach]; cases tier' <;> simp [Tier.operators] at isOperator <;> decide
  simp only [bind_eq_ok, pure_eq_ok] at h
  obtain ⟨right, _, operand, id, _, fresh, rfl, rfl⟩ := h
  obtain ⟨us, rest, j, rfl, rfl, second, stops⟩ := readsExpression level below operand
  cases fresh
  rw [next] at second
  have looser : tier'.rank ≤ tier.rank := rank_le_of_reach (by omega) (by omega)
  have joined := Expression.operator isOperator (derived.loosen looser) second
  unfold Tier.join at joined
  rw [isLogical] at joined
  exact ⟨t :: us, rest, j + 1, tier', rfl, rfl, joined, reach ▸ stops, by
    rw [Tier.rank_above]; omega⟩

include isStop readsExpression in
/-- Joined to what a token may join, the token and what is read after it make an expression of a
tier that is tight enough for the level. -/
theorem join_reads {tier : Tier} {above : Nat} {ts ahead : List Token} {left e : Expr}
    {start i : Nat} {t : Token} {joint : Joint} {c' : Cursor}
    (derived : Expression tier ts left start i) (found : t.kind.joint? = some joint)
    (tight : above < joint.level) (within : joint.level ≤ tier.reach)
    (h : join expression left t joint ⟨ahead, stop, i⟩ = .ok e c') :
    Joined stop above ts e start c' (t :: ahead) := by
  have enough : (Tier.above above).rank ≤ Tier.postfixed.rank := by
    rw [Tier.rank_above]
    exact Nat.le_trans (Nat.min_le_right _ _) (by decide)
  cases joint with
  | assignment =>
    simp only [join, bind_eq_ok] at h
    obtain ⟨value, _, right, h⟩ := h
    obtain ⟨us, rest, j, rfl, rfl, second, stops⟩ := readsExpression _ (Nat.zero_le _) right
    cases left with
    | reference id name =>
      simp only [bind_eq_ok, pure_eq_ok] at h
      obtain ⟨_, _, fresh, rfl, rfl⟩ := h
      cases fresh
      obtain ⟨rfl, isName, rfl, rfl⟩ := derived.of_reference rfl
      refine ⟨t :: us, rest, j + 1, .expression, rfl, rfl,
        .assignment isName (kind_of_assignment found) second, stops, ?_⟩
      have lowest : above = 0 := Nat.lt_one_iff.1 tight
      subst lowest
      decide
    | _ => exact absurd h fail_ne_ok
  | logical level =>
    exact operator_reads readsExpression (l := true) derived found tight within h
  | binary level =>
    exact operator_reads readsExpression (l := false) derived found tight within h
  | step =>
    simp only [join, bind_eq_ok, pure_eq_ok] at h
    obtain ⟨_, _, fresh, rfl, rfl⟩ := h
    cases fresh
    exact ⟨[t], ahead, i + 1, .postfixed, rfl, rfl,
      .step (kind_of_step found) (derived.loosen (rank_of_reach_step within)), stops_call _,
      enough⟩
  | call =>
    simp only [join, bind_eq_ok, pure_eq_ok] at h
    obtain ⟨⟨arguments, closing⟩, _, list, _, _, fresh, rfl, rfl⟩ := h
    obtain ⟨_, rest, j, rfl, rfl, us, rfl, isClosing, items⟩ :=
      arguments_reads isStop readsExpression list
    cases fresh
    have function := derived.loosen (rank_of_reach_step (Nat.le_of_succ_le within))
    have isOpening := kind_of_call found
    refine ⟨t :: (us ++ [closing]), rest, j + 1, .postfixed, rfl, rfl, ?_, stops_call _, enough⟩
    rcases items with ⟨rfl, none, rfl⟩ | ⟨items, few⟩
    · simp only at none
      subst none
      exact .callWithout isOpening isClosing function
    · exact .call isOpening isClosing function items few

/-! ## Statements -/

/-- What the reader of a kind of statements reads. -/
def ReadsStatement (stop : Token) (ts : List Token) (s : Stmt) (i j : Nat) (rest : List Token) :
    Prop :=
  ∃ dangling, Statement dangling ts s i j ∧ (dangling = true → (rest.headD stop).kind ≠ .elseWord)

private theorem closed {ts rest : List Token} {s : Stmt} {i j : Nat}
    (derived : Statement false ts s i j) : ReadsStatement stop ts s i j rest :=
  ⟨false, derived, fun dangling => nomatch dangling⟩

include isStop readsExpression in
theorem expressionStatement_reads : Reads stop (fun ts s i j _ => ∃ us semicolon e,
    ts = us ++ [semicolon] ∧ semicolon.kind = .semicolon ∧ s = .expression e ∧
      Expression .expression us e i j) (expressionStatement expression) := by
  intro ahead i s c' h
  simp only [expressionStatement, bind_eq_ok, pure_eq_ok] at h
  obtain ⟨e, _, value, semicolon, _, close, rfl, rfl⟩ := h
  obtain ⟨us, rest, j, rfl, rfl, derived, _⟩ := readsExpression _ (Nat.zero_le _) value
  obtain ⟨_, rest, _, rfl, rfl, rfl, isEnd, rfl⟩ := want_reads isStop _ close
  exact ⟨us ++ [semicolon], rest, j, by simp, rfl, us, semicolon, e, rfl, isEnd, rfl, derived⟩

include readsExpression in
theorem absentAt_reads {kind : Kind} : Reads stop (fun ts e i j _ => Clause ts e i j)
    (absentAt kind (expression Level.none)) := by
  intro ahead i e c' h
  simp only [absentAt, bind_of_ok (check_eq _ _ _ _)] at h
  by_cases absent : (ahead.headD stop).kind = kind
  · simp only [absent, decide_true, if_true, pure_eq_ok] at h
    obtain ⟨rfl, rfl⟩ := h
    exact ⟨[], ahead, i, rfl, rfl, .absent⟩
  · simp only [absent, decide_false, Bool.false_eq_true, if_false, bind_eq_ok, pure_eq_ok] at h
    obtain ⟨e, _, value, rfl, rfl⟩ := h
    obtain ⟨us, rest, j, rfl, rfl, derived, _⟩ := readsExpression _ (Nat.zero_le _) value
    exact ⟨us, rest, j, rfl, rfl, .present derived⟩

include isStop readsExpression in
theorem declaration_reads {keyword : Token} {rest : List Token} {i : Nat} {s : Stmt} {c' : Cursor}
    (isKeyword : keyword.kind = .varWord)
    (h : declaration expression ⟨keyword :: rest, stop, i⟩ = .ok s c') :
    ∃ ts rest' j, rest = ts ++ rest' ∧ c' = ⟨rest', stop, j⟩ ∧
      Statement false (keyword :: ts) s i j := by
  simp only [declaration, bind_of_ok (advance_eq _ _ _), List.tail_cons, bind_eq_ok] at h
  obtain ⟨name, _, name', found, _, sign, h⟩ := h
  obtain ⟨_, rest, _, rfl, rfl, rfl, isName, rfl⟩ := want_reads isStop _ name'
  obtain ⟨_, rest, _, rfl, rfl, rfl, isSign⟩ := accept_reads isStop (by decide) sign
  cases found with
  | true =>
    obtain ⟨t, rfl, isSign⟩ := isSign
    simp only [if_true, map_eq_pure_bind, bind_eq_ok, pure_eq_ok] at h
    obtain ⟨_, _, ⟨e, _, value, rfl, rfl⟩, semicolon, _, close, rfl, rfl⟩ := h
    obtain ⟨us, rest, j, rfl, rfl, derived, _⟩ := readsExpression _ (Nat.zero_le _) value
    obtain ⟨_, rest, _, rfl, rfl, rfl, isEnd, rfl⟩ := want_reads isStop _ close
    exact ⟨name :: t :: (us ++ [semicolon]), rest, j, by simp, rfl,
      .initialized isKeyword isName isSign isEnd derived⟩
  | false =>
    obtain ⟨rfl, _⟩ := isSign
    simp only [Bool.false_eq_true, if_false, bind_eq_ok, pure_eq_ok] at h
    obtain ⟨_, _, ⟨rfl, rfl⟩, semicolon, _, close, rfl, rfl⟩ := h
    obtain ⟨_, rest, _, rfl, rfl, rfl, isEnd, rfl⟩ := want_reads isStop _ close
    exact ⟨[name, semicolon], rest, _, rfl, rfl, .declared isKeyword isName isEnd⟩

include isStop readsExpression readsBody in
theorem functionDeclaration_reads {keyword : Token} {rest : List Token} {i : Nat} {s : Stmt}
    {c' : Cursor} (isKeyword : keyword.kind = .funWord)
    (h : functionDeclaration expression body ⟨keyword :: rest, stop, i⟩ = .ok s c') :
    ∃ ts rest' j, keyword :: rest = ts ++ rest' ∧ c' = ⟨rest', stop, j⟩ ∧
      Statement false ts s i j := by
  have asExpression (h : expressionStatement expression ⟨keyword :: rest, stop, i⟩ = .ok s c') :
      ∃ ts rest' j, keyword :: rest = ts ++ rest' ∧ c' = ⟨rest', stop, j⟩ ∧
        Statement false ts s i j := by
    obtain ⟨ts, rest', j, place, place', us, semicolon, e, rfl, isEnd, rfl, derived⟩ :=
      expressionStatement_reads isStop readsExpression h
    exact ⟨_, rest', j, place, place', .expression isEnd derived⟩
  cases rest with
  | nil => exact asExpression h
  | cons name rest =>
    have unfolded : functionDeclaration expression body ⟨keyword :: name :: rest, stop, i⟩ =
        (if name.kind = .identifier then do
          let keyword ← advance
          let name ← advance
          return .declaration name (some (← function body keyword (some name)))
        else expressionStatement expression : Reading Stmt) ⟨keyword :: name :: rest, stop, i⟩ := rfl
    rw [unfolded] at h
    by_cases isName : name.kind = .identifier
    · simp only [isName, if_true, bind_of_ok (advance_eq _ _ _), List.headD_cons, List.tail_cons,
        bind_eq_ok, pure_eq_ok] at h
      obtain ⟨_, _, read, rfl, rfl⟩ := h
      obtain ⟨ts, rest, _, rfl, rfl, params, ss, k, derived, rfl, rfl⟩ :=
        function_reads isStop readsBody keyword (some name) read
      exact ⟨keyword :: name :: ts, rest, k + 1, rfl, rfl, .function isKeyword isName derived⟩
    · simp only [isName, if_false] at h
      exact asExpression h

include isStop readsExpression readsStatement in
theorem ifElse_reads {keyword : Token} {rest : List Token} {i : Nat} {s : Stmt} {c' : Cursor}
    (isKeyword : keyword.kind = .ifWord)
    (h : ifElse expression statement ⟨keyword :: rest, stop, i⟩ = .ok s c') :
    ∃ ts rest' j, rest = ts ++ rest' ∧ c' = ⟨rest', stop, j⟩ ∧
      ReadsStatement stop (keyword :: ts) s i j rest' := by
  simp only [ifElse, bind_of_ok (advance_eq _ _ _), List.tail_cons, bind_eq_ok] at h
  obtain ⟨opening, _, open', condition, _, test, closing, _, close, thenBranch, _, branch, found,
    _, word, h⟩ := h
  obtain ⟨_, rest, _, rfl, rfl, rfl, isOpening, rfl⟩ := want_reads isStop _ open'
  obtain ⟨us, rest, j, rfl, rfl, tested, _⟩ := readsExpression _ (Nat.zero_le _) test
  obtain ⟨_, rest, _, rfl, rfl, rfl, isClosing, rfl⟩ := want_reads isStop _ close
  obtain ⟨vs, rest, k, rfl, rfl, dangling, branched, onward⟩ := readsStatement branch
  obtain ⟨_, rest, _, rfl, rfl, rfl, isElse⟩ := accept_reads isStop (by decide) word
  cases found with
  | true =>
    obtain ⟨t, rfl, isElse⟩ := isElse
    -- The branch is not dangling, or it would have taken the `else` itself.
    have closed : dangling = false := by
      cases dangling with
      | false => rfl
      | true => exact absurd isElse (onward rfl)
    subst closed
    simp only [if_true, map_eq_pure_bind, bind_eq_ok, pure_eq_ok] at h
    obtain ⟨_, _, ⟨other, _, read, rfl, rfl⟩, rfl, rfl⟩ := h
    obtain ⟨ws, rest, l, rfl, rfl, dangling', others, onward'⟩ := readsStatement read
    exact ⟨opening :: (us ++ closing :: (vs ++ t :: ws)), rest, l, by simp, rfl, dangling',
      .ifElse isKeyword isOpening isClosing isElse tested branched others, onward'⟩
  | false =>
    obtain ⟨rfl, notElse⟩ := isElse
    simp only [Bool.false_eq_true, if_false, bind_eq_ok, pure_eq_ok] at h
    obtain ⟨_, _, ⟨rfl, rfl⟩, rfl, rfl⟩ := h
    exact ⟨opening :: (us ++ closing :: vs), rest, _, by simp, rfl, true,
      .ifOnly isKeyword isOpening isClosing tested branched, fun _ => notElse⟩

include isStop readsExpression readsStatement in
theorem whileLoop_reads {keyword : Token} {rest : List Token} {i : Nat} {s : Stmt} {c' : Cursor}
    (isKeyword : keyword.kind = .whileWord)
    (h : whileLoop expression statement ⟨keyword :: rest, stop, i⟩ = .ok s c') :
    ∃ ts rest' j, rest = ts ++ rest' ∧ c' = ⟨rest', stop, j⟩ ∧
      ReadsStatement stop (keyword :: ts) s i j rest' := by
  simp only [whileLoop, bind_of_ok (advance_eq _ _ _), List.tail_cons, bind_eq_ok,
    pure_eq_ok] at h
  obtain ⟨opening, _, open', condition, _, test, closing, _, close, round, _, body, rfl, rfl⟩ := h
  obtain ⟨_, rest, _, rfl, rfl, rfl, isOpening, rfl⟩ := want_reads isStop _ open'
  obtain ⟨us, rest, j, rfl, rfl, tested, _⟩ := readsExpression _ (Nat.zero_le _) test
  obtain ⟨_, rest, _, rfl, rfl, rfl, isClosing, rfl⟩ := want_reads isStop _ close
  obtain ⟨vs, rest, k, rfl, rfl, dangling, derived, onward⟩ := readsStatement body
  exact ⟨opening :: (us ++ closing :: vs), rest, k, by simp, rfl, dangling,
    .whileLoop isKeyword isOpening isClosing tested derived, onward⟩

include isStop readsExpression in
theorem forInitializer_reads :
    Reads stop (fun ts s i j _ => First ts s i j) (forInitializer expression) := by
  intro ahead i s c' h
  simp only [forInitializer, bind_eq_ok] at h
  obtain ⟨found, _, semicolon, h⟩ := h
  obtain ⟨_, rest, _, rfl, rfl, rfl, isEnd⟩ := accept_reads isStop (by decide) semicolon
  cases found with
  | true =>
    obtain ⟨t, rfl, isEnd⟩ := isEnd
    simp only [if_true, pure_eq_ok] at h
    obtain ⟨rfl, rfl⟩ := h
    exact ⟨[t], rest, _, rfl, rfl, .absent isEnd⟩
  | false =>
    obtain ⟨rfl, _⟩ := isEnd
    simp only [Bool.false_eq_true, if_false, bind_of_ok (check_eq _ _ _ _)] at h
    by_cases isVariable : (rest.headD stop).kind = .varWord
    · obtain ⟨keyword, rest, rfl, isKeyword⟩ := headD_kind isStop (by decide) isVariable
      simp only [isVariable, decide_true, if_true, bind_eq_ok, pure_eq_ok] at h
      obtain ⟨_, _, read, rfl, rfl⟩ := h
      obtain ⟨ts, rest, j, rfl, rfl, derived⟩ :=
        declaration_reads isStop readsExpression isKeyword read
      exact ⟨keyword :: ts, rest, j, rfl, rfl, .declared isKeyword derived⟩
    · simp only [isVariable, decide_false, Bool.false_eq_true, if_false, bind_eq_ok,
        pure_eq_ok] at h
      obtain ⟨_, _, read, rfl, rfl⟩ := h
      obtain ⟨_, rest, j, rfl, rfl, us, t, e, rfl, isEnd, rfl, derived⟩ :=
        expressionStatement_reads isStop readsExpression read
      exact ⟨us ++ [t], rest, j, rfl, rfl, .expression isEnd derived⟩

include isStop readsExpression readsStatement in
theorem forLoop_reads {keyword : Token} {rest : List Token} {i : Nat} {s : Stmt} {c' : Cursor}
    (isKeyword : keyword.kind = .forWord)
    (h : forLoop expression statement ⟨keyword :: rest, stop, i⟩ = .ok s c') :
    ∃ ts rest' j, rest = ts ++ rest' ∧ c' = ⟨rest', stop, j⟩ ∧
      ReadsStatement stop (keyword :: ts) s i j rest' := by
  simp only [forLoop, bind_of_ok (advance_eq _ _ _), List.tail_cons, bind_eq_ok] at h
  obtain ⟨opening, _, open', first, _, start, condition?, _, test, semicolon, _, middle,
    increment, _, onward, closing, _, close, round, _, body, h⟩ := h
  obtain ⟨_, rest, _, rfl, rfl, rfl, isOpening, rfl⟩ := want_reads isStop _ open'
  obtain ⟨ts, rest, j, rfl, rfl, started⟩ := forInitializer_reads isStop readsExpression start
  obtain ⟨us, rest, k, rfl, rfl, tested⟩ := absentAt_reads readsExpression test
  obtain ⟨_, rest, _, rfl, rfl, rfl, isEnd, rfl⟩ := want_reads isStop _ middle
  obtain ⟨vs, rest, l, rfl, rfl, stepped⟩ := absentAt_reads readsExpression onward
  obtain ⟨_, rest, _, rfl, rfl, rfl, isClosing, rfl⟩ := want_reads isStop _ close
  obtain ⟨ws, rest, m, rfl, rfl, dangling, derived, free⟩ := readsStatement body
  cases tested with
  | absent =>
    simp only [bind_eq_ok, pure_eq_ok] at h
    obtain ⟨_, _, fresh, _, _, ⟨rfl, rfl⟩, rfl, rfl⟩ := h
    cases fresh
    exact ⟨opening :: (ts ++ semicolon :: (vs ++ closing :: ws)), rest, m + 1, by simp, rfl,
      dangling, .endlessLoop isKeyword isOpening isEnd isClosing started stepped derived, free⟩
  | present tested =>
    simp only [bind_eq_ok, pure_eq_ok] at h
    obtain ⟨_, _, ⟨rfl, rfl⟩, rfl, rfl⟩ := h
    exact ⟨opening :: (ts ++ (us ++ semicolon :: (vs ++ closing :: ws))), rest, m, by simp, rfl,
      dangling, .forLoop isKeyword isOpening isEnd isClosing started tested stepped derived, free⟩

include isStop in
private theorem jump_reads {jump : Token → Stmt} {wanted : Wanted} {keyword : Token}
    {rest : List Token} {i : Nat} {s : Stmt} {c' : Cursor}
    (h : (do
      let keyword ← advance
      let _ ← want wanted
      return jump keyword : Reading Stmt) ⟨keyword :: rest, stop, i⟩ = .ok s c') :
    ∃ semicolon rest', semicolon.kind = wanted.kind ∧ rest = semicolon :: rest' ∧
      c' = ⟨rest', stop, i⟩ ∧ s = jump keyword := by
  simp only [bind_of_ok (advance_eq _ _ _), List.tail_cons, List.headD_cons, bind_eq_ok,
    pure_eq_ok] at h
  obtain ⟨semicolon, _, close, rfl, rfl⟩ := h
  obtain ⟨_, rest, _, rfl, rfl, rfl, isEnd, rfl⟩ := want_reads isStop _ close
  exact ⟨semicolon, rest, isEnd, rfl, rfl, rfl⟩

include isStop readsExpression in
theorem returnValue_reads {keyword : Token} {rest : List Token} {i : Nat} {s : Stmt} {c' : Cursor}
    (isKeyword : keyword.kind = .returnWord)
    (h : returnValue expression ⟨keyword :: rest, stop, i⟩ = .ok s c') :
    ∃ ts rest' j, rest = ts ++ rest' ∧ c' = ⟨rest', stop, j⟩ ∧
      Statement false (keyword :: ts) s i j := by
  simp only [returnValue, bind_of_ok (advance_eq _ _ _), List.tail_cons, List.headD_cons,
    bind_eq_ok, pure_eq_ok] at h
  obtain ⟨value, _, read, semicolon, _, close, rfl, rfl⟩ := h
  obtain ⟨us, rest, j, rfl, rfl, clause⟩ := absentAt_reads readsExpression read
  obtain ⟨_, rest, _, rfl, rfl, rfl, isEnd, rfl⟩ := want_reads isStop _ close
  exact ⟨us ++ [semicolon], rest, j, by simp, rfl, .returnValue isKeyword isEnd clause⟩

include isStop readsExpression readsStatement readsBody in
theorem statementOf_reads : ReadsStatements stop (statementOf expression statement body) := by
  intro ahead i s c' h
  simp only [statementOf, bind_of_ok (peek_eq _ _ _)] at h
  have asExpression (h : expressionStatement expression ⟨ahead, stop, i⟩ = .ok s c') :
      ∃ ts rest j, ahead = ts ++ rest ∧ c' = ⟨rest, stop, j⟩ ∧
        ReadsStatement stop ts s i j rest := by
    obtain ⟨ts, rest, j, place, place', us, semicolon, e, rfl, isEnd, rfl, derived⟩ :=
      expressionStatement_reads isStop readsExpression h
    exact ⟨_, rest, j, place, place', closed (.expression isEnd derived)⟩
  cases ahead with
  | nil =>
    simp only [List.headD_nil, isStop] at h
    exact asExpression h
  | cons t rest =>
    simp only [List.headD_cons] at h
    cases isKind : t.kind with
    | leftBrace =>
      simp only [isKind, bind_of_ok (advance_eq _ _ _), List.tail_cons, bind_eq_ok,
        pure_eq_ok] at h
      obtain ⟨ss, _, read, rfl, rfl⟩ := h
      obtain ⟨_, rest, j, rfl, rfl, us, t', rfl, isStop', derived⟩ := readsBody read
      exact ⟨t :: (us ++ [t']), rest, j, rfl, rfl, closed (.block isKind isStop' derived)⟩
    | varWord =>
      simp only [isKind] at h
      obtain ⟨ts, rest, j, rfl, rfl, derived⟩ :=
        declaration_reads isStop readsExpression isKind h
      exact ⟨t :: ts, rest, j, rfl, rfl, closed derived⟩
    | funWord =>
      simp only [isKind] at h
      obtain ⟨ts, rest, j, place, rfl, derived⟩ :=
        functionDeclaration_reads isStop readsExpression readsBody isKind h
      exact ⟨ts, rest, j, place, rfl, closed derived⟩
    | ifWord =>
      simp only [isKind] at h
      obtain ⟨ts, rest, j, rfl, rfl, derived⟩ :=
        ifElse_reads isStop readsExpression readsStatement isKind h
      exact ⟨t :: ts, rest, j, rfl, rfl, derived⟩
    | whileWord =>
      simp only [isKind] at h
      obtain ⟨ts, rest, j, rfl, rfl, derived⟩ :=
        whileLoop_reads isStop readsExpression readsStatement isKind h
      exact ⟨t :: ts, rest, j, rfl, rfl, derived⟩
    | forWord =>
      simp only [isKind] at h
      obtain ⟨ts, rest, j, rfl, rfl, derived⟩ :=
        forLoop_reads isStop readsExpression readsStatement isKind h
      exact ⟨t :: ts, rest, j, rfl, rfl, derived⟩
    | breakWord =>
      simp only [isKind] at h
      obtain ⟨semicolon, rest, isEnd, rfl, rfl, rfl⟩ := jump_reads isStop h
      exact ⟨[t, semicolon], rest, i, rfl, rfl, closed (.breakLoop isKind isEnd)⟩
    | continueWord =>
      simp only [isKind] at h
      obtain ⟨semicolon, rest, isEnd, rfl, rfl, rfl⟩ := jump_reads isStop h
      exact ⟨[t, semicolon], rest, i, rfl, rfl, closed (.continueLoop isKind isEnd)⟩
    | returnWord =>
      simp only [isKind] at h
      obtain ⟨ts, rest, j, rfl, rfl, derived⟩ :=
        returnValue_reads isStop readsExpression isKind h
      exact ⟨t :: ts, rest, j, rfl, rfl, closed derived⟩
    | _ => simp only [isKind] at h; exact asExpression h

end Parts

/-! ## All readers -/

/-- A reader that joins what follows to an operand reads an expression of the tier of the level. -/
def ReadsChains (stop : Token) (chain : Nat → Expr → Reading Expr) : Prop :=
  ∀ {above : Nat} {tier : Tier} {ts ahead : List Token} {left e : Expr} {start i : Nat}
    {c' : Cursor}, Expression tier ts left start i → Stops tier.reach (ahead.headD stop).kind →
    (Tier.above above).rank ≤ tier.rank → chain above left ⟨ahead, stop, i⟩ = .ok e c' →
    ∃ us rest j, ahead = us ++ rest ∧ c' = ⟨rest, stop, j⟩ ∧
      Expression (Tier.above above) (ts ++ us) e start j ∧ Stops above (rest.headD stop).kind

/-- What the readers of one depth read. -/
structure ReadsAll (stop : Token) (n : Nat) : Prop where
  expressions : ReadsExpressions stop (expression n)
  chains : ReadsChains stop (chain n)
  statements : ReadsStatements stop (statement n)
  bodies : ReadsBodies stop (body n)

private theorem chain_reads (isStop : stop.kind = .eof) {n : Nat} (below : ReadsAll stop n) :
    ReadsChains stop (chain (n + 1)) := by
  intro above tier ts ahead left e start i c' derived stops enough h
  rw [chain, bind_of_ok (peek_eq _ _ _)] at h
  have finished (h : (pure left : Reading Expr) ⟨ahead, stop, i⟩ = .ok e c')
      (stops : Stops above (ahead.headD stop).kind) :
      ∃ us rest j, ahead = us ++ rest ∧ c' = ⟨rest, stop, j⟩ ∧
        Expression (Tier.above above) (ts ++ us) e start j ∧
        Stops above (rest.headD stop).kind := by
    obtain ⟨rfl, rfl⟩ := pure_eq_ok.1 h
    exact ⟨[], ahead, i, rfl, rfl, by simpa using derived.loosen enough, stops⟩
  cases found : (ahead.headD stop).kind.joint? with
  | none =>
    simp only [found] at h
    exact finished h fun joint other => by rw [found] at other; cases other
  | some joint =>
    simp only [found] at h
    by_cases tight : above < joint.level
    · obtain ⟨t, rest, rfl⟩ : ∃ t rest, ahead = t :: rest := by
        cases ahead with
        | nil => simp [isStop, Kind.joint?] at found
        | cons t rest => exact ⟨t, rest, rfl⟩
      simp only [tight, if_true, bind_of_ok (advance_eq _ _ _), List.headD_cons, List.tail_cons,
        bind_eq_ok] at h
      obtain ⟨joined, _, read, h⟩ := h
      obtain ⟨us, rest', j, tier', place, rfl, derived', stops', enough'⟩ :=
        join_reads isStop below.expressions derived found tight (stops joint found) read
      obtain ⟨vs, rest', k, rfl, rfl, derived'', stops''⟩ :=
        below.chains derived' stops' enough' h
      exact ⟨us ++ vs, rest', k, place.trans (List.append_assoc _ _ _).symm, rfl,
        by rwa [List.append_assoc] at derived'', stops''⟩
    · simp only [tight, if_false] at h
      refine finished h fun joint' other => ?_
      rw [found] at other
      cases other
      exact Nat.le_of_not_lt tight

private theorem expression_reads (isStop : stop.kind = .eof) {n : Nat} (below : ReadsAll stop n) :
    ReadsExpressions stop (expression (n + 1)) := by
  intro above limit ahead i e c' h
  simp only [expression, bind_eq_ok] at h
  obtain ⟨left, _, operand, h⟩ := h
  obtain ⟨ts, rest, j, rfl, rfl, derived⟩ :=
    operandOf_reads isStop below.expressions below.bodies operand
  have enough (tier : Tier) (tightest : 7 ≤ tier.rank) :
      (Tier.above above).rank ≤ tier.rank := by
    rw [Tier.rank_above]; omega
  have chained : ∃ us rest' k, rest = us ++ rest' ∧ c' = ⟨rest', stop, k⟩ ∧
      Expression (Tier.above above) (ts ++ us) e i k ∧ Stops above (rest'.headD stop).kind := by
    rcases derived with primary | ⟨unary, stops⟩
    · exact below.chains primary (stops_call _) (enough _ (by decide)) h
    · exact below.chains unary stops (enough _ (by decide)) h
  obtain ⟨us, rest', k, rfl, rfl, derived', stops⟩ := chained
  exact ⟨ts ++ us, rest', k, by simp, rfl, derived', stops⟩

private theorem body_reads (isStop : stop.kind = .eof) {n : Nat} (below : ReadsAll stop n) :
    ReadsBodies stop (body (n + 1)) := by
  intro ahead i ss c' h
  simp only [body, bind_of_ok (peek_eq _ _ _)] at h
  by_cases atEnd : (ahead.headD stop).kind = .rightBrace ∨ (ahead.headD stop).kind = .eof
  · simp only [atEnd, if_true, bind_eq_ok, pure_eq_ok] at h
    obtain ⟨closing, _, close, rfl, rfl⟩ := h
    obtain ⟨_, rest, _, rfl, rfl, rfl, isClosing, rfl⟩ := want_reads isStop _ close
    exact ⟨[closing], rest, i, rfl, rfl, [], closing, rfl, isClosing, .nil⟩
  · simp only [atEnd, if_false, bind_eq_ok, pure_eq_ok] at h
    obtain ⟨s, _, first, others, _, more, rfl, rfl⟩ := h
    obtain ⟨ts, rest, j, rfl, rfl, dangling, derived, _⟩ := below.statements first
    obtain ⟨_, rest, k, rfl, rfl, us, closing, rfl, isClosing, derived'⟩ := below.bodies more
    exact ⟨ts ++ (us ++ [closing]), rest, k, by simp, rfl, ts ++ us, closing, by simp, isClosing,
      .cons derived derived'⟩

theorem reads_all (isStop : stop.kind = .eof) (n : Nat) : ReadsAll stop n := by
  induction n with
  | zero =>
    refine ⟨?_, ?_, ?_, ?_⟩
    · intro above limit ahead i e c' h; cases h
    · intro above tier ts ahead left e start i c' derived stops enough h; cases h
    · intro ahead i s c' h; cases h
    · intro ahead i ss c' h; cases h
  | succ n ih =>
    refine ⟨expression_reads isStop ih, chain_reads isStop ih, ?_, body_reads isStop ih⟩
    exact statementOf_reads isStop ih.expressions ih.statements ih.bodies

/-- A program that is read is derived, by all tokens of the stream. -/
theorem program_reads (isStop : stop.kind = .eof) (depth : Nat) (count : Nat)
    {ahead : List Token} {i : Nat} {p : Program} {c' : Cursor}
    (h : Reading.program depth count ⟨ahead, stop, i⟩ = .ok p c') :
    ∃ ts rest j, ahead = ts ++ rest ∧ c' = ⟨rest, stop, j⟩ ∧ Statements ts p i j ∧
      (rest.headD stop).kind = .eof := by
  induction count generalizing ahead i p c' with
  | zero => cases h
  | succ count ih =>
    simp only [Reading.program, bind_of_ok (check_eq _ _ _ _)] at h
    by_cases atEnd : (ahead.headD stop).kind = .eof
    · simp only [atEnd, decide_true, if_true, pure_eq_ok] at h
      obtain ⟨rfl, rfl⟩ := h
      exact ⟨[], ahead, i, rfl, rfl, .nil, atEnd⟩
    · simp only [atEnd, decide_false, Bool.false_eq_true, if_false, bind_eq_ok, pure_eq_ok] at h
      obtain ⟨s, _, first, others, _, more, rfl, rfl⟩ := h
      obtain ⟨ts, rest, j, rfl, rfl, dangling, derived, _⟩ :=
        (reads_all isStop depth).statements first
      have more : Reading.program depth count ⟨rest, stop, j⟩ = .ok others ‹Cursor› := by
        unfold Reading.after EStateM.adaptExcept at more
        split at more <;> simp_all
      obtain ⟨us, rest, k, rfl, rfl, derived', atEnd'⟩ := ih more
      exact ⟨ts ++ us, rest, k, by simp, rfl, .cons derived derived', atEnd'⟩

/-! ## Whole streams -/

/-- The program that a stream is, is derived by tokens at its front. -/
theorem derived_of_program {stream : Stream} (isStop : stream.stop.kind = .eof) {p : Program}
    {i j : Nat} (isProgram : stream.program i = (.ok p, j)) :
    ∃ ts rest, stream.tokens = ts ++ rest ∧ Statements ts p i j := by
  unfold Stream.program Stream.read EStateM.run at isProgram
  split at isProgram
  · next ran =>
    cases isProgram
    obtain ⟨ts, rest, _, split, rfl, derived, _⟩ := program_reads isStop _ _ ran
    exact ⟨ts, rest, split, derived⟩
  · cases isProgram

/-- The expression that a stream is, is derived by tokens at its front. -/
theorem derived_of_expression {stream : Stream} (isStop : stream.stop.kind = .eof) {e : Expr}
    {i j : Nat} (isExpression : stream.expression i = (.ok e, j)) :
    ∃ ts rest, stream.tokens = ts ++ rest ∧ Expression .expression ts e i j := by
  unfold Stream.expression Stream.read EStateM.run at isExpression
  split at isExpression
  · next ran =>
    cases isExpression
    obtain ⟨e', middle, first, atEnd⟩ := bind_eq_ok.1 ran
    obtain ⟨ts, rest, j, split, rfl, derived, _⟩ :=
      (reads_all isStop _).expressions Level.none (by decide) first
    rw [bind_of_ok (check_eq _ _ _ _)] at atEnd
    split at atEnd
    · obtain ⟨rfl, rfl⟩ := pure_eq_ok.1 atEnd
      exact ⟨ts, rest, split, derived⟩
    · cases atEnd
  · cases isExpression

end Lox.Grammar
