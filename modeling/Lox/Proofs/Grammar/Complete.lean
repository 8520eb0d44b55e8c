import Lox.Proofs.Grammar.Sound

/-!
# What is derived is read

Every derivation is followed by the readers, whatever tokens come after those derived, as long as
none of them could go on from there. An expression that is read leaves the reader of joints where
it stands, so that what is derived to the left of an operator is joined to what comes after. The
depth that a reader needs is at most four for each token.
-/

namespace Lox.Grammar

open Reading

variable {stop : Token}

/-- A reader that is deep enough for some tokens can go one step down. -/
theorem exists_shallower {least depth : Nat} (deep : least ≤ depth) (positive : 1 ≤ least) :
    ∃ n, depth = n + 1 :=
  Nat.exists_eq_add_of_le' (Nat.le_trans positive deep)

/-! ## First tokens -/

/-- The kinds of tokens that an expression can start with. -/
def starters : List Kind :=
  [.minus, .bang, .number, .string, .nilWord, .trueWord, .falseWord, .identifier, .leftParen,
    .funWord]

/-- An expression starts with a token that starts expressions; a function goes on with its
parameters. -/
theorem Expression.first {tier : Tier} {ts : List Token} {e : Expr} {i j : Nat} :
    Expression tier ts e i j → ∃ t rest, ts = t :: rest ∧ t.kind ∈ starters ∧
      (t.kind = .funWord → ∃ opening rest', rest = opening :: rest' ∧ opening.kind = .leftParen)
  | .tighter inner => inner.first
  | .assignment isName _ _ =>
    ⟨_, _, rfl, by rw [isName]; decide, fun isKeyword => by rw [isName] at isKeyword; cases isKeyword⟩
  | .operator _ left _ | .step _ left | .callWithout _ _ left | .call _ _ left _ _ => by
    obtain ⟨t, rest, rfl, starts, function⟩ := left.first
    refine ⟨t, _, rfl, starts, fun isKeyword => ?_⟩
    obtain ⟨opening, rest', rfl, isOpening⟩ := function isKeyword
    exact ⟨opening, _, rfl, isOpening⟩
  | .unary isOperator _ => by
    refine ⟨_, _, rfl, ?_, fun isKeyword => ?_⟩
    · rcases isOperator with is | is <;> rw [is] <;> decide
    · rcases isOperator with is | is <;> rw [is] at isKeyword <;> cases isKeyword
  | .value isValue => by
    refine ⟨_, _, rfl, ?_, fun isKeyword => ?_⟩
    · rcases isValue with is | is | is <;> rw [is] <;> decide
    · rcases isValue with is | is | is <;> rw [is] at isKeyword <;> cases isKeyword
  | .yes is | .no is | .reference is | .grouping is _ _ =>
    ⟨_, _, rfl, by rw [is]; decide, fun isKeyword => by rw [is] at isKeyword; cases isKeyword⟩
  | .lambda isKeyword (.intro isOpening _ _ _ _ _) =>
    ⟨_, _, rfl, by rw [isKeyword]; decide, fun _ => ⟨_, _, rfl, isOpening⟩⟩

/-- The kinds of tokens that no statement starts with. -/
def followers : List Kind := [.elseWord, .rightBrace, .rightParen, .semicolon, .eof]

theorem ne_of_starter {kind other : Kind} (starts : kind ∈ starters) (not : other ∉ starters) :
    kind ≠ other :=
  fun same => not (same ▸ starts)

theorem not_follower_of_starter {kind : Kind} (starts : kind ∈ starters) : kind ∉ followers := by
  revert kind; decide

theorem Items.first {ts : List Token} {es : List Expr} {i j : Nat} (derived : Items ts es i j) :
    ∃ t rest, ts = t :: rest ∧ t.kind ∈ starters := by
  cases derived with
  | one item =>
    obtain ⟨t, rest, rfl, starts, _⟩ := item.first
    exact ⟨t, rest, rfl, starts⟩
  | more item _ _ =>
    obtain ⟨t, rest, rfl, starts, _⟩ := item.first
    exact ⟨t, _, rfl, starts⟩

theorem Statement.first {dangling : Bool} {ts : List Token} {s : Stmt} {i j : Nat}
    (derived : Statement dangling ts s i j) :
    ∃ t rest, ts = t :: rest ∧ t.kind ∉ followers := by
  cases derived with
  | expression _ value =>
    obtain ⟨t, rest, rfl, starts, _⟩ := value.first
    exact ⟨t, _, rfl, not_follower_of_starter starts⟩
  | declared is | initialized is | function is | block is | ifOnly is | ifElse is | whileLoop is
  | forLoop is | endlessLoop is | breakLoop is | continueLoop is | returnValue is =>
    exact ⟨_, _, rfl, by rw [is]; decide⟩

theorem Statement.length_pos {dangling : Bool} {ts : List Token} {s : Stmt} {i j : Nat}
    (derived : Statement dangling ts s i j) : 0 < ts.length := by
  obtain ⟨t, rest, rfl, _⟩ := derived.first
  exact Nat.zero_lt_succ _

/-- Statements do not start with an `else`, nor does what follows them. -/
theorem Statements.next_ne {ts : List Token} {ss : List Stmt} {i j : Nat}
    (derived : Statements ts ss i j) {rest : List Token}
    (other : (rest.headD stop).kind ≠ .elseWord) :
    ((ts ++ rest).headD stop).kind ≠ .elseWord := by
  cases derived with
  | nil => exact other
  | cons first _ =>
    obtain ⟨t, ts, rfl, starts⟩ := first.first
    intro is
    rw [List.cons_append, List.cons_append, List.headD_cons] at is
    exact starts (by rw [is]; decide)

/-! ## Steps of the readers -/

theorem run_bind {α β : Type} (x : Reading α) (f : α → Reading β) (c : Cursor) :
    (x >>= f) c = match x c with
      | .ok a c' => f a c'
      | .error e c' => .error e c' := by
  show EStateM.bind x f c = _
  unfold EStateM.bind
  cases x c <;> rfl

theorem run_pure {α : Type} (a : α) (c : Cursor) : (pure a : Reading α) c = .ok a c := rfl

theorem run_get (c : Cursor) : (get : Reading Cursor) c = .ok c c := rfl

theorem want_of_kind (wanted : Wanted) {t : Token} (is : t.kind = wanted.kind) (rest : List Token)
    (i : Nat) : want wanted ⟨t :: rest, stop, i⟩ = .ok t ⟨rest, stop, i⟩ := by
  rw [want_eq]; exact if_pos is

theorem accept_of_kind {kind : Kind} {t : Token} (is : t.kind = kind) (rest : List Token)
    (i : Nat) : accept kind ⟨t :: rest, stop, i⟩ = .ok true ⟨rest, stop, i⟩ := by
  rw [accept_eq]; exact if_pos is

theorem accept_of_ne {kind : Kind} {ts : List Token} (other : (ts.headD stop).kind ≠ kind)
    (i : Nat) : accept kind ⟨ts, stop, i⟩ = .ok false ⟨ts, stop, i⟩ := by
  rw [accept_eq]; exact if_neg other

theorem chain_stop {m above : Nat} {e : Expr} {rest : List Token} {j : Nat} (deep : 0 < m)
    (stops : Stops above (rest.headD stop).kind) :
    chain m above e ⟨rest, stop, j⟩ = .ok e ⟨rest, stop, j⟩ := by
  obtain ⟨m, rfl⟩ := Nat.exists_eq_succ_of_ne_zero (Nat.ne_of_gt deep)
  rw [chain, bind_of_ok (peek_eq _ _ _)]
  cases found : (rest.headD stop).kind.joint? with
  | none => rfl
  | some joint => simp only [Nat.not_lt.2 (stops joint found), if_false]; rfl

theorem chain_join {m above : Nat} {e joined : Expr} {t : Token} {joint : Joint}
    {rest rest' : List Token} {i j : Nat} (found : t.kind.joint? = some joint)
    (tight : above < joint.level)
    (read : join (expression m) e t joint ⟨rest, stop, i⟩ = .ok joined ⟨rest', stop, j⟩) :
    chain (m + 1) above e ⟨t :: rest, stop, i⟩ = chain m above joined ⟨rest', stop, j⟩ := by
  rw [chain, bind_of_ok (peek_eq _ _ _)]
  simp only [List.headD_cons, found, tight, if_true, bind_of_ok (advance_eq _ _ _),
    List.tail_cons]
  exact bind_of_ok read

theorem expression_of_operand {n above : Nat} {e : Expr} {ts rest : List Token} {i j : Nat}
    (read : operandOf (expression n) (body n) ⟨ts, stop, i⟩ = .ok e ⟨rest, stop, j⟩) :
    expression (n + 1) above ⟨ts, stop, i⟩ = chain n above e ⟨rest, stop, j⟩ := by
  rw [expression]
  exact bind_of_ok read

theorem joint_of_operator {tier : Tier} {kind : Kind} (isOperator : kind ∈ tier.operators) :
    kind.joint? = some (if tier.isLogical then .logical tier.reach else .binary tier.reach) ∧
      Tier.above tier.reach = tier.next ∧ tier.reach = tier.rank + 1 := by
  cases tier <;> simp [Tier.operators] at isOperator <;>
    rcases isOperator with rfl | rfl | rfl | rfl <;> exact ⟨rfl, rfl, rfl⟩

theorem joint_of_step {kind : Kind} (isOperator : kind = .plusPlus ∨ kind = .minusMinus) :
    kind.joint? = some .step := by
  rcases isOperator with rfl | rfl <;> rfl

theorem joint_of_opening {kind : Kind} (isOpening : kind = .leftParen) :
    kind.joint? = some .call := by
  rw [isOpening]; rfl

theorem operators_rank {tier : Tier} {kind : Kind} (isOperator : kind ∈ tier.operators) :
    tier.rank < 7 := by
  cases tier <;> simp [Tier.operators] at isOperator <;> decide

theorem Tier.reach_le_next (tier : Tier) : tier.reach ≤ tier.next.reach := by
  cases tier <;> decide

theorem Tier.rank_le_next (tier : Tier) : tier.rank ≤ tier.next.rank := by
  cases tier <;> decide

/-- The reader of expressions, set on tokens that an expression is derived from, comes to join what
follows them to its tree. -/
def Follows (stop : Token) (tier : Tier) (ts : List Token) (e : Expr) (i j : Nat) : Prop :=
  ∀ ⦃above n : Nat⦄ ⦃rest : List Token⦄, above ≤ Level.unary →
    (Tier.above above).rank ≤ tier.rank →
    Stops tier.reach (rest.headD stop).kind → 4 * ts.length ≤ n →
    ∃ m, 0 < m ∧ n < m + 4 * ts.length ∧
      Reading.expression n above ⟨ts ++ rest, stop, i⟩ = chain m above e ⟨rest, stop, j⟩

theorem Follows.read {tier : Tier} {ts : List Token} {e : Expr} {i j : Nat}
    (follows : Follows stop tier ts e i j) {above n : Nat} {rest : List Token}
    (low : above ≤ Level.unary) (enough : (Tier.above above).rank ≤ tier.rank)
    (stops : Stops (min above tier.reach) (rest.headD stop).kind) (deep : 4 * ts.length ≤ n) :
    Reading.expression n above ⟨ts ++ rest, stop, i⟩ = .ok e ⟨rest, stop, j⟩ := by
  obtain ⟨m, positive, _, run⟩ := follows low enough (stops.mono (Nat.min_le_right _ _)) deep
  rw [run, chain_stop positive (stops.mono (Nat.min_le_left _ _))]

/-- A whole expression is read up to a token that joins nothing. -/
theorem Follows.whole {ts : List Token} {e : Expr} {i j : Nat}
    (follows : Follows stop .expression ts e i j) {n : Nat} {t : Token} {kind : Kind}
    (rest : List Token) (is : t.kind = kind) (ends : kind.joint? = none)
    (deep : 4 * ts.length ≤ n) :
    Reading.expression n Level.none ⟨ts ++ t :: rest, stop, i⟩ = .ok e ⟨t :: rest, stop, j⟩ := by
  refine follows.read (Nat.zero_le _) (Nat.le_refl _) ?_ deep
  intro joint found
  rw [List.headD_cons, is, ends] at found
  cases found

/-- The operator of a tier joins the expressions that are derived on both of its sides. -/
theorem Follows.operator {tier : Tier} {operator : Token} {ts us : List Token} {left right : Expr}
    {i j k : Nat} (first : Follows stop tier ts left i j)
    (isOperator : operator.kind ∈ tier.operators) (second : Follows stop tier.next us right j k) :
    Follows stop tier (ts ++ operator :: us) (tier.join k left operator right) i (k + 1) := by
  intro above n rest low enough stops deep
  obtain ⟨found, next, rank⟩ := joint_of_operator isOperator
  simp only [List.length_append, List.length_cons] at deep
  have isLevel : (if tier.isLogical then Joint.logical tier.reach
      else Joint.binary tier.reach).level = tier.reach := by split <;> rfl
  have goesOn : Stops tier.reach ((operator :: (us ++ rest)).headD stop).kind := by
    intro joint found'
    rw [List.headD_cons, found] at found'
    cases found'
    exact Nat.le_of_eq isLevel
  obtain ⟨m, positive, near, run⟩ := first low enough goesOn (Nat.le_trans (by omega) deep)
  obtain ⟨m, rfl⟩ := Nat.exists_eq_succ_of_ne_zero (Nat.ne_of_gt positive)
  have operand : Reading.expression m tier.reach ⟨us ++ rest, stop, j⟩ =
      .ok right ⟨rest, stop, k⟩ := by
    refine second.read ?_ (Nat.le_of_eq (by rw [next])) ?_ (by omega)
    · have : tier.rank < 7 := operators_rank isOperator
      show tier.reach ≤ 8
      omega
    · rwa [Nat.min_eq_left (Tier.reach_le_next tier)]
  have tight : above < tier.reach := by
    rw [Tier.rank_above] at enough
    have : tier.rank < 7 := operators_rank isOperator
    omega
  refine ⟨m, by omega, by simp only [List.length_append, List.length_cons]; omega, ?_⟩
  rw [List.append_assoc, List.cons_append, run]
  refine chain_join found (by rw [isLevel]; exact tight) ?_
  unfold Tier.join
  split <;> simp only [join, run_bind, operand] <;> rfl

/-! ## Operands -/

theorem operandOf_atom {expression : Nat → Reading Expr} {body : Reading (List Stmt)} {t : Token}
    {node : Nat → Expr} (isAtom : atom? t = some node) (rest : List Token) (i : Nat) :
    operandOf expression body ⟨t :: rest, stop, i⟩ = .ok (node i) ⟨rest, stop, i + 1⟩ := by
  simp only [operandOf, bind_of_ok (advance_eq _ _ _), List.headD_cons, List.tail_cons, isAtom]
  rfl

/-- A token that is an operand by itself is read as one. -/
theorem follows_atom {t : Token} (node : Nat → Expr) (isAtom : atom? t = some node) (i : Nat) :
    Follows stop .primary [t] (node i) i (i + 1) := by
  intro above n rest low enough stops deep
  obtain ⟨n, rfl⟩ := Nat.exists_eq_add_of_le' (Nat.le_trans (by decide : 4 ≤ 4) deep)
  exact ⟨n + 3, by omega, by simp, expression_of_operand (operandOf_atom isAtom rest i)⟩

theorem Follows.prefixed {operator : Token} {ts : List Token} {right : Expr} {i j : Nat}
    (operand : Follows stop .unary ts right i j)
    (isOperator : operator.kind = .minus ∨ operator.kind = .bang) :
    Follows stop .unary (operator :: ts) (.unary j operator right) i (j + 1) := by
  intro above n rest low enough stops deep
  simp only [List.length_cons] at deep ⊢
  obtain ⟨n, rfl⟩ := exists_shallower deep (by omega)
  refine ⟨n, by omega, by omega, expression_of_operand ?_⟩
  have read := operand.read (Nat.le_refl Level.unary) (Nat.le_refl _) stops (by omega : _ ≤ n)
  rcases isOperator with is | is <;>
  · simp only [operandOf, run_bind, advance_eq, List.cons_append, List.headD_cons,
      List.tail_cons, atom?, is, read]
    rfl

theorem Follows.assigned {name sign : Token} {ts : List Token} {value : Expr} {i j : Nat}
    (right : Follows stop .expression ts value (i + 1) j) (isName : name.kind = .identifier)
    (isSign : sign.kind = .equal) :
    Follows stop .expression (name :: sign :: ts) (.assignment j name value) i (j + 1) := by
  intro above n rest low enough stops deep
  simp only [List.length_cons] at deep ⊢
  obtain ⟨n, rfl⟩ := Nat.exists_eq_add_of_le' (Nat.le_trans (by omega : 2 ≤ _) deep)
  have isLowest : above = 0 := by
    rw [Tier.rank_above] at enough
    have : Tier.expression.rank = 0 := rfl
    omega
  subst isLowest
  refine ⟨n, by omega, by omega, ?_⟩
  have isAtom : atom? name = some (.reference · name) := by simp only [atom?, isName]
  rw [List.cons_append, List.cons_append, expression_of_operand (operandOf_atom isAtom _ _)]
  have found : sign.kind.joint? = some .assignment := by rw [isSign]; rfl
  refine chain_join found (by decide) ?_
  have read := right.read (Nat.zero_le _) (Nat.le_refl _) stops (by omega : _ ≤ n)
  simp only [join, run_bind, Level.none, read]
  rfl

/-- What a token joins to a postfixed expression makes a postfixed expression. -/
theorem Follows.joined {ts : List Token} {t : Token} {left joined : Expr} {joint : Joint}
    {i j k : Nat} (operand : Follows stop .postfixed ts left i j) (us : List Token)
    (found : t.kind.joint? = some joint) (tight : Level.unary < joint.level)
    (read : ∀ {n : Nat} {rest : List Token}, 4 * us.length ≤ n →
      join (Reading.expression n) left t joint ⟨us ++ rest, stop, j⟩ =
        .ok joined ⟨rest, stop, k⟩) :
    Follows stop .postfixed (ts ++ t :: us) joined i k := by
  intro above n rest low enough stops deep
  simp only [List.length_append, List.length_cons] at deep ⊢
  obtain ⟨m, positive, near, run⟩ :=
    @operand above n (t :: (us ++ rest)) low enough (stops_call _) (by omega)
  obtain ⟨m, rfl⟩ := Nat.exists_eq_succ_of_ne_zero (Nat.ne_of_gt positive)
  refine ⟨m, by omega, by omega, ?_⟩
  rw [List.append_assoc, List.cons_append, run]
  exact chain_join found (Nat.lt_of_le_of_lt low tight) (read (by omega))

/-! ## Lists and functions -/

theorem commaSeparated_one {α : Type} {tooMany : SyntaxError.Cause} {item : Reading α} {a : α}
    {c : Cursor} {rest : List Token} {j : Nat} (count : Nat)
    (first : item c = .ok a ⟨rest, stop, j⟩) (ends : (rest.headD stop).kind ≠ .comma) :
    commaSeparated tooMany item (count + 1) c = .ok [a] ⟨rest, stop, j⟩ := by
  simp only [commaSeparated, run_bind, first, accept_of_ne ends]
  rfl

theorem commaSeparated_more {α : Type} {tooMany : SyntaxError.Cause} {item : Reading α} {a : α}
    {as : List α} {c c' : Cursor} {comma : Token} {rest : List Token} {j count : Nat}
    (first : item c = .ok a ⟨comma :: rest, stop, j⟩) (isComma : comma.kind = .comma)
    (others : commaSeparated tooMany item count ⟨rest, stop, j⟩ = .ok as c') :
    commaSeparated tooMany item (count + 1) c = .ok (a :: as) c' := by
  simp only [commaSeparated, run_bind, first, accept_of_kind isComma, if_true, others]
  rfl

theorem listed_none {α : Type} {tooMany : SyntaxError.Cause} {item : Reading α} {closing : Token}
    (wanted : Wanted) (isClosing : closing.kind = wanted.kind) (rest : List Token) (i : Nat) :
    listed tooMany wanted item ⟨closing :: rest, stop, i⟩ =
      .ok ([], closing) ⟨rest, stop, i⟩ := by
  simp only [listed, run_bind, check_eq, List.headD_cons, isClosing, decide_true, if_true,
    run_pure, want_of_kind _ isClosing]

theorem listed_some {α : Type} {tooMany : SyntaxError.Cause} {item : Reading α} {as : List α}
    {t closing : Token} {wanted : Wanted} {ts rest : List Token} {i j : Nat}
    (other : t.kind ≠ wanted.kind) (isClosing : closing.kind = wanted.kind)
    (items : commaSeparated tooMany item maxArguments ⟨t :: ts, stop, i⟩ =
      .ok as ⟨closing :: rest, stop, j⟩) :
    listed tooMany wanted item ⟨t :: ts, stop, i⟩ = .ok (as, closing) ⟨rest, stop, j⟩ := by
  simp only [listed, run_bind, check_eq, List.headD_cons, other, decide_false, Bool.false_eq_true,
    if_false, items, want_of_kind _ isClosing, run_pure]

theorem Names.read {tooMany : SyntaxError.Cause} {ts names : List Token}
    (derived : Names ts names) {count : Nat} (few : names.length ≤ count) (rest : List Token)
    (ends : (rest.headD stop).kind ≠ .comma) (i : Nat) :
    commaSeparated tooMany (want .parameterName) count ⟨ts ++ rest, stop, i⟩ =
      .ok names ⟨rest, stop, i⟩ := by
  obtain ⟨count, rfl⟩ : ∃ more, count = more + 1 := by
    refine Nat.exists_eq_add_of_le' (Nat.le_trans ?_ few)
    cases derived <;> simp
  induction derived generalizing count with
  | one isName => exact commaSeparated_one count (want_of_kind _ isName _ _) ends
  | more isName isComma derived ih =>
    refine commaSeparated_more (want_of_kind _ isName _ _) isComma ?_
    obtain ⟨count, rfl⟩ : ∃ more, count = more + 1 := by
      refine Nat.exists_eq_add_of_le' (Nat.le_trans ?_ (Nat.le_of_succ_le_succ few))
      cases derived <;> simp
    exact ih count (Nat.le_of_succ_le_succ few)

theorem Names.first {ts names : List Token} (derived : Names ts names) :
    ∃ t rest, ts = t :: rest ∧ t.kind = .identifier := by
  cases derived with
  | one isName => exact ⟨_, _, rfl, isName⟩
  | more isName _ _ => exact ⟨_, _, rfl, isName⟩

theorem Parameters.read {ps params : List Token} {closing : Token} (derived : Parameters ps params)
    (isClosing : closing.kind = .rightParen) (rest : List Token) (i : Nat) :
    listed .tooManyParameters .parametersEnd (want .parameterName)
      ⟨ps ++ closing :: rest, stop, i⟩ = .ok (params, closing) ⟨rest, stop, i⟩ := by
  cases derived with
  | none => exact listed_none _ isClosing rest i
  | some derived few =>
    obtain ⟨t, ts, rfl, isName⟩ := derived.first
    refine listed_some (by rw [isName]; decide) isClosing
      (derived.read few (closing :: rest) ?_ i)
    rw [List.headD_cons, isClosing]
    decide

/-- The reader of bodies reads statements and the brace after them. -/
def ReadsBody (stop : Token) (ts : List Token) (ss : List Stmt) (i j : Nat) : Prop :=
  ∀ ⦃n : Nat⦄ ⦃closing : Token⦄ ⦃rest : List Token⦄, closing.kind = .rightBrace →
    4 * ts.length + 1 ≤ n →
    Reading.body n ⟨ts ++ closing :: rest, stop, i⟩ = .ok ss ⟨rest, stop, j⟩

/-- A function is read from its parameters on. -/
def ReadsFunction (stop : Token) (ts params : List Token) (ss : List Stmt) (i j : Nat) : Prop :=
  ∀ ⦃n : Nat⦄ ⦃keyword : Token⦄ ⦃name : Option Token⦄ ⦃rest : List Token⦄, 4 * ts.length ≤ n + 4 →
    Reading.function (Reading.body n) keyword name ⟨ts ++ rest, stop, i⟩ =
      .ok (.lambda j keyword params ss name) ⟨rest, stop, j + 1⟩

theorem ReadsBody.function {opening closing start close : Token} {ps params ts : List Token}
    {ss : List Stmt} {i j : Nat} (body : ReadsBody stop ts ss i j)
    (isOpening : opening.kind = .leftParen) (isClosing : closing.kind = .rightParen)
    (isStart : start.kind = .leftBrace) (isClose : close.kind = .rightBrace)
    (parameters : Parameters ps params) :
    ReadsFunction stop (opening :: (ps ++ closing :: start :: (ts ++ [close]))) params ss i j := by
  intro n keyword name rest deep
  simp only [List.length_append, List.length_cons, List.length_nil] at deep
  have read := @body n close rest isClose (by omega)
  have opened : opening.kind =
      (if name.isSome = true then Wanted.namedFunctionStart else .functionStart).kind := by
    split <;> exact isOpening
  simp only [Reading.function, run_bind, List.cons_append, List.append_assoc, List.nil_append,
    want_of_kind _ opened, parameters.read isClosing, want_of_kind .bodyStart isStart,
    read]
  rfl

/-! ## Statements -/

/-- A statement is read, unless it could still take an `else` that follows. -/
def ReadsStatementOf (stop : Token) (dangling : Bool) (ts : List Token) (s : Stmt) (i j : Nat) :
    Prop :=
  ∀ ⦃n : Nat⦄ ⦃rest : List Token⦄, (dangling = true → (rest.headD stop).kind ≠ .elseWord) →
    4 * ts.length ≤ n → Reading.statement n ⟨ts ++ rest, stop, i⟩ = .ok s ⟨rest, stop, j⟩

/-- A clause is read up to the token that ends it. -/
def ReadsClause (stop : Token) (ts : List Token) (e : Option Expr) (i j : Nat) : Prop :=
  ∀ ⦃n : Nat⦄ ⦃closing : Token⦄ ⦃kind : Kind⦄ ⦃rest : List Token⦄, closing.kind = kind →
    kind ∈ followers → 4 * ts.length ≤ n →
    absentAt kind (Reading.expression n Level.none) ⟨ts ++ closing :: rest, stop, i⟩ =
      .ok e ⟨closing :: rest, stop, j⟩

/-- The first clause of a loop is read. -/
def ReadsFirst (stop : Token) (ts : List Token) (s : Option Stmt) (i j : Nat) : Prop :=
  ∀ ⦃n : Nat⦄ ⦃rest : List Token⦄, 4 * ts.length ≤ n →
    forInitializer (Reading.expression n) ⟨ts ++ rest, stop, i⟩ = .ok s ⟨rest, stop, j⟩

section Steps

variable {expression : Nat → Reading Expr} {statement : Reading Stmt}
  {body : Reading (List Stmt)}

theorem joint_of_follower {kind : Kind} (follows : kind ∈ followers) : kind.joint? = none := by
  revert kind; decide

theorem absentAt_none {kind : Kind} {closing : Token} (item : Reading Expr)
    (is : closing.kind = kind) (rest : List Token) (i : Nat) :
    absentAt kind item ⟨closing :: rest, stop, i⟩ = .ok none ⟨closing :: rest, stop, i⟩ := by
  simp only [absentAt, run_bind, check_eq, List.headD_cons, is, decide_true, if_true, run_pure]

theorem absentAt_some {kind : Kind} {t : Token} {item : Reading Expr} {ts : List Token} {e : Expr}
    {c' : Cursor} {i : Nat} (other : t.kind ≠ kind)
    (read : item ⟨t :: ts, stop, i⟩ = .ok e c') :
    absentAt kind item ⟨t :: ts, stop, i⟩ = .ok (some e) c' := by
  simp only [absentAt, run_bind, check_eq, List.headD_cons, other, decide_false,
    Bool.false_eq_true, if_false, read, run_pure]

theorem expressionStatement_eq {ts rest : List Token} {semicolon : Token} {e : Expr} {i j : Nat}
    (isEnd : semicolon.kind = .semicolon)
    (read : expression Level.none ⟨ts, stop, i⟩ = .ok e ⟨semicolon :: rest, stop, j⟩) :
    expressionStatement expression ⟨ts, stop, i⟩ = .ok (.expression e) ⟨rest, stop, j⟩ := by
  simp only [expressionStatement, run_bind, read, want_of_kind .expressionEnd isEnd,
    run_pure]

/-- A statement that starts with a token of an expression is one. -/
theorem statementOf_expression {t : Token} {rest : List Token} {i : Nat}
    (starts : t.kind ∈ starters)
    (function : t.kind = .funWord →
      ∃ opening rest', rest = opening :: rest' ∧ opening.kind = .leftParen) :
    statementOf expression statement body ⟨t :: rest, stop, i⟩ =
      expressionStatement expression ⟨t :: rest, stop, i⟩ := by
  simp only [statementOf, run_bind, peek_eq, List.headD_cons]
  simp only [starters, List.mem_cons, List.not_mem_nil, or_false] at starts
  rcases starts with is | is | is | is | is | is | is | is | is | is <;> simp only [is]
  obtain ⟨opening, rest', rfl, isOpening⟩ := function is
  have other : ¬ opening.kind = .identifier := by rw [isOpening]; decide
  simp only [functionDeclaration, run_bind, run_get, List.tail_cons, List.head?_cons, other,
    if_false]

theorem some_map {α : Type} {x : Reading α} {a : α} {c c' : Cursor} (read : x c = .ok a c') :
    (some <$> x) c = .ok (some a) c' := by
  rw [map_eq_pure_bind, run_bind, read]
  rfl

theorem declaration_none {keyword name semicolon : Token} (isName : name.kind = .identifier)
    (isEnd : semicolon.kind = .semicolon) (rest : List Token) (i : Nat) :
    declaration expression ⟨keyword :: name :: semicolon :: rest, stop, i⟩ =
      .ok (.declaration name none) ⟨rest, stop, i⟩ := by
  have other : ((semicolon :: rest).headD stop).kind ≠ .equal := by
    rw [List.headD_cons, isEnd]; decide
  simp only [declaration, run_bind, advance_eq, List.tail_cons,
    want_of_kind .variableName isName, accept_of_ne other, Bool.false_eq_true, if_false,
    run_pure, want_of_kind .declarationEnd isEnd]

theorem declaration_some {keyword name sign semicolon : Token} {ts rest : List Token} {e : Expr}
    {i j : Nat} (isName : name.kind = .identifier) (isSign : sign.kind = .equal)
    (isEnd : semicolon.kind = .semicolon)
    (read : expression Level.none ⟨ts, stop, i⟩ = .ok e ⟨semicolon :: rest, stop, j⟩) :
    declaration expression ⟨keyword :: name :: sign :: ts, stop, i⟩ =
      .ok (.declaration name (some e)) ⟨rest, stop, j⟩ := by
  simp only [declaration, run_bind, advance_eq, List.tail_cons,
    want_of_kind .variableName isName, accept_of_kind isSign, if_true, some_map read,
    want_of_kind .declarationEnd isEnd, run_pure]

theorem forInitializer_declaration {keyword : Token} {ts : List Token} {s : Stmt} {c' : Cursor}
    {i : Nat} (isKeyword : keyword.kind = .varWord)
    (read : declaration expression ⟨keyword :: ts, stop, i⟩ = .ok s c') :
    forInitializer expression ⟨keyword :: ts, stop, i⟩ = .ok (some s) c' := by
  have other : ((keyword :: ts).headD stop).kind ≠ .semicolon := by
    rw [List.headD_cons, isKeyword]; decide
  simp only [forInitializer, run_bind, accept_of_ne other, Bool.false_eq_true, if_false, check_eq,
    List.headD_cons, isKeyword, decide_true, if_true, read, run_pure]

theorem forInitializer_expression {t : Token} {ts : List Token} {s : Stmt} {c' : Cursor}
    {i : Nat} (starts : t.kind ∈ starters)
    (read : expressionStatement expression ⟨t :: ts, stop, i⟩ = .ok s c') :
    forInitializer expression ⟨t :: ts, stop, i⟩ = .ok (some s) c' := by
  have other : ((t :: ts).headD stop).kind ≠ .semicolon := ne_of_starter starts (by decide)
  have other' : t.kind ≠ .varWord := ne_of_starter starts (by decide)
  simp only [forInitializer, run_bind, accept_of_ne other, Bool.false_eq_true, if_false, check_eq,
    List.headD_cons, other', decide_false, read, run_pure]

/-- A conditional goes on after its branch with an `else` or with what follows. -/
theorem ifElse_of_branch {keyword opening closing : Token} {ts us rest : List Token}
    {condition : Expr} {s : Stmt} {i j k : Nat} (isKeyword : keyword.kind = .ifWord)
    (isOpening : opening.kind = .leftParen) (isClosing : closing.kind = .rightParen)
    (test : expression Level.none ⟨ts, stop, i⟩ = .ok condition ⟨closing :: us, stop, j⟩)
    (branch : statement ⟨us, stop, j⟩ = .ok s ⟨rest, stop, k⟩) :
    statementOf expression statement body ⟨keyword :: opening :: ts, stop, i⟩ =
      (do
        let other ← if ← accept .elseWord then some <$> statement else pure none
        return Stmt.ifElse condition s other) ⟨rest, stop, k⟩ := by
  simp only [statementOf, run_bind, peek_eq, List.headD_cons, isKeyword, ifElse, advance_eq,
    List.tail_cons, want_of_kind .ifStart isOpening, test,
    want_of_kind .ifEnd isClosing, branch]

theorem whileLoop_of_body {keyword opening closing : Token} {ts us rest : List Token}
    {condition : Expr} {s : Stmt} {i j k : Nat} (isKeyword : keyword.kind = .whileWord)
    (isOpening : opening.kind = .leftParen) (isClosing : closing.kind = .rightParen)
    (test : expression Level.none ⟨ts, stop, i⟩ = .ok condition ⟨closing :: us, stop, j⟩)
    (round : statement ⟨us, stop, j⟩ = .ok s ⟨rest, stop, k⟩) :
    statementOf expression statement body ⟨keyword :: opening :: ts, stop, i⟩ =
      .ok (.whileLoop condition s none) ⟨rest, stop, k⟩ := by
  simp only [statementOf, run_bind, peek_eq, List.headD_cons, isKeyword, whileLoop, advance_eq,
    List.tail_cons, want_of_kind .whileStart isOpening, test,
    want_of_kind .whileEnd isClosing, round, run_pure]

/-- A `for` loop is read once its clauses and its body are; its condition is completed last. -/
theorem forLoop_of_body {keyword opening semicolon closing : Token} {ts us vs ws rest : List Token}
    {first : Option Stmt} {condition increment : Option Expr} {s : Stmt} {i j k l m : Nat}
    (isKeyword : keyword.kind = .forWord) (isOpening : opening.kind = .leftParen)
    (isEnd : semicolon.kind = .semicolon) (isClosing : closing.kind = .rightParen)
    (start : forInitializer expression ⟨ts, stop, i⟩ = .ok first ⟨us, stop, j⟩)
    (test : absentAt .semicolon (expression Level.none) ⟨us, stop, j⟩ =
      .ok condition ⟨semicolon :: vs, stop, k⟩)
    (onward : absentAt .rightParen (expression Level.none) ⟨vs, stop, k⟩ =
      .ok increment ⟨closing :: ws, stop, l⟩)
    (round : statement ⟨ws, stop, l⟩ = .ok s ⟨rest, stop, m⟩) :
    statementOf expression statement body ⟨keyword :: opening :: ts, stop, i⟩ =
      match condition with
      | some e => .ok (loop first e s increment) ⟨rest, stop, m⟩
      | none => .ok (loop first (.literal m (.bool true)) s increment) ⟨rest, stop, m + 1⟩ := by
  simp only [statementOf, run_bind, peek_eq, List.headD_cons, isKeyword, forLoop, advance_eq,
    List.tail_cons, want_of_kind .forStart isOpening, start, test,
    want_of_kind .loopConditionEnd isEnd, onward,
    want_of_kind .forEnd isClosing, round]
  cases condition <;> cases first <;> rfl

end Steps

theorem Follows.clause {ts : List Token} {e : Expr} {i j : Nat}
    (follows : Follows stop .expression ts e i j) (derived : Expression .expression ts e i j) :
    ReadsClause stop ts (some e) i j := by
  intro n closing kind rest is ends deep
  have read := follows.whole rest is (joint_of_follower ends) deep
  obtain ⟨t, ts, rfl, starts, _⟩ := derived.first
  refine absentAt_some (ne_of_starter starts fun starts' => ?_) read
  exact not_follower_of_starter starts' ends

/-! ## Everything that is derived -/

/-- A body goes on after a statement with the rest of it. -/
theorem body_of_statement {dangling : Bool} {ts us rest : List Token} {s : Stmt} {ss : List Stmt}
    {n i j k : Nat} (derived : Statement dangling ts s i j)
    (first : Reading.statement n ⟨ts ++ us, stop, i⟩ = .ok s ⟨us, stop, j⟩)
    (others : Reading.body n ⟨us, stop, j⟩ = .ok ss ⟨rest, stop, k⟩) :
    Reading.body (n + 1) ⟨ts ++ us, stop, i⟩ = .ok (s :: ss) ⟨rest, stop, k⟩ := by
  obtain ⟨t, ts, rfl, starts⟩ := derived.first
  have goesOn : ¬ (t.kind = .rightBrace ∨ t.kind = .eof) := by
    rintro (is | is) <;> exact starts (by rw [is]; decide)
  simp only [Reading.body, run_bind, peek_eq, List.cons_append, List.headD_cons, goesOn, if_false]
  rw [List.cons_append] at first
  simp only [first, others, run_pure]

mutual

theorem Expression.follows {tier : Tier} {ts : List Token} {e : Expr} {i j : Nat} (stop : Token) :
    Expression tier ts e i j → Follows stop tier ts e i j
  | .tighter inner => by
    intro above n rest low enough stops deep
    exact inner.follows stop low (Nat.le_trans enough (Tier.rank_le_next _))
      (stops.mono (Tier.reach_le_next _)) deep
  | .assignment isName isSign right => (right.follows stop).assigned isName isSign
  | .operator isOperator first second => (first.follows stop).operator isOperator (second.follows stop)
  | .unary isOperator operand => (operand.follows stop).prefixed isOperator
  | .step isOperator operand =>
    (operand.follows stop).joined [] (joint_of_step isOperator) (by decide) fun _ => rfl
  | .callWithout isOpening isClosing function => by
    refine (function.follows stop).joined [_] (joint_of_opening isOpening) (by decide) ?_
    intro n rest deep
    simp only [join, run_bind, List.cons_append, List.nil_append,
      listed_none .argumentsEnd isClosing]
    rfl
  | .call isOpening isClosing function items few => by
    refine (function.follows stop).joined _ (joint_of_opening isOpening) (by decide) ?_
    intro n rest deep
    rw [List.length_append] at deep
    have read := items.read stop rest .tooManyArguments few isClosing (by omega : _ ≤ n)
    obtain ⟨t, us, rfl, starts⟩ := items.first
    have other : t.kind ≠ Wanted.argumentsEnd.kind := ne_of_starter starts (by decide)
    rw [List.cons_append] at read
    rw [List.append_assoc]
    simp only [join, run_bind, List.cons_append, List.nil_append,
      listed_some other isClosing read]
    rfl
  | .value (t := t) isValue => by
    refine follows_atom (.literal · t.literal) ?_ _
    rcases isValue with is | is | is <;> simp only [atom?, is]
  | .yes is => follows_atom (.literal · (.bool true)) (by simp only [atom?, is]) _
  | .no is => follows_atom (.literal · (.bool false)) (by simp only [atom?, is]) _
  | .reference is => follows_atom (.reference · _) (by simp only [atom?, is]) _
  | .grouping isOpening isClosing content => by
    intro above n rest low enough stops deep
    simp only [List.length_append, List.length_cons, List.length_nil] at deep ⊢
    obtain ⟨n, rfl⟩ := exists_shallower deep (by omega)
    refine ⟨n, by omega, by omega, expression_of_operand ?_⟩
    have read := (content.follows stop).whole rest isClosing (by decide) (by omega : _ ≤ n)
    simp only [operandOf, run_bind, advance_eq, List.cons_append, List.append_assoc,
      List.nil_append, List.headD_cons, List.tail_cons, atom?, isOpening, read,
      want_of_kind .groupEnd isClosing]
    rfl
  | .lambda isKeyword function => by
    intro above n rest low enough stops deep
    simp only [List.length_cons] at deep ⊢
    obtain ⟨n, rfl⟩ := exists_shallower deep (by omega)
    refine ⟨n, by omega, by omega, expression_of_operand ?_⟩
    simp only [operandOf, run_bind, advance_eq, List.cons_append, List.headD_cons, List.tail_cons,
      atom?, isKeyword]
    exact function.reads stop (by omega)

theorem Items.read {us : List Token} {es : List Expr} {i j : Nat} (stop : Token) :
    Items us es i j → ∀ ⦃closing : Token⦄ (rest : List Token) (tooMany : SyntaxError.Cause)
      ⦃n count : Nat⦄, es.length ≤ count → closing.kind = .rightParen → 4 * us.length ≤ n →
      commaSeparated tooMany (Reading.expression n Level.none) count
        ⟨us ++ closing :: rest, stop, i⟩ = .ok es ⟨closing :: rest, stop, j⟩
  | .one item => by
    intro _ rest tooMany n count few isClosing deep
    obtain ⟨count, rfl⟩ := Nat.exists_eq_add_of_le' few
    exact commaSeparated_one count ((item.follows stop).whole rest isClosing (by decide) deep)
      (by rw [List.headD_cons, isClosing]; decide)
  | .more item isComma others => by
    intro _ rest tooMany n count few isClosing deep
    simp only [List.length_append, List.length_cons] at few deep
    obtain ⟨count, rfl⟩ := exists_shallower few (by omega)
    rw [List.append_assoc, List.cons_append]
    exact commaSeparated_more
      ((item.follows stop).whole _ isComma (by decide) (by omega)) isComma
      (others.read stop rest tooMany (by omega) isClosing (by omega))

theorem Function.reads {ts params : List Token} {ss : List Stmt} {i j : Nat} (stop : Token) :
    Function ts params ss i j → ReadsFunction stop ts params ss i j
  | .intro isOpening isClosing isStart isClose parameters statements =>
    (statements.reads stop).function isOpening isClosing isStart isClose parameters

theorem Clause.reads {ts : List Token} {e : Option Expr} {i j : Nat} (stop : Token) :
    Clause ts e i j → ReadsClause stop ts e i j
  | .absent => fun _ _ _ _ is _ _ => absentAt_none _ is _ _
  | .present expression => (expression.follows stop).clause expression

theorem First.reads {ts : List Token} {s : Option Stmt} {i j : Nat} (stop : Token) :
    First ts s i j → ReadsFirst stop ts s i j
  | .absent isEnd => by
    intro n rest deep
    simp only [forInitializer, run_bind, List.cons_append, List.nil_append, accept_of_kind isEnd,
      if_true, run_pure]
  | .declared isKeyword declaration => by
    intro n rest deep
    have reads := declaration.reads stop
    have read := @reads (n + 1) rest nofun (by omega)
    rw [List.cons_append] at read ⊢
    simp only [Reading.statement, statementOf, run_bind, peek_eq, List.headD_cons,
      isKeyword] at read
    exact forInitializer_declaration isKeyword read
  | .expression isEnd value => by
    intro n rest deep
    simp only [List.length_append] at deep
    have read := expressionStatement_eq isEnd
      ((value.follows stop).whole rest isEnd (by decide) (by omega : _ ≤ n))
    obtain ⟨t, ts, rfl, starts, _⟩ := value.first
    rw [List.append_assoc]
    rw [List.cons_append] at read ⊢
    exact forInitializer_expression starts read

theorem Statement.reads {dangling : Bool} {ts : List Token} {s : Stmt} {i j : Nat} (stop : Token) :
    Statement dangling ts s i j → ReadsStatementOf stop dangling ts s i j
  | .expression isEnd value => by
    intro n rest free deep
    simp only [List.length_append, List.length_cons, List.length_nil] at deep
    obtain ⟨n, rfl⟩ := exists_shallower deep (by omega)
    have read := expressionStatement_eq isEnd
      ((value.follows stop).whole rest isEnd (by decide) (by omega : _ ≤ n))
    obtain ⟨t, ts, rfl, starts, function⟩ := value.first
    rw [List.append_assoc, Reading.statement]
    rw [List.cons_append] at read ⊢
    rw [statementOf_expression starts ?_]
    · exact read
    · intro isKeyword
      obtain ⟨opening, ts, rfl, isOpening⟩ := function isKeyword
      exact ⟨opening, _, rfl, isOpening⟩
  | .declared isKeyword isName isEnd => by
    intro n rest free deep
    simp only [List.length_cons, List.length_nil] at deep
    obtain ⟨n, rfl⟩ := exists_shallower deep (by omega)
    simp only [Reading.statement, statementOf, run_bind, List.cons_append, List.nil_append,
      peek_eq, List.headD_cons, isKeyword]
    exact declaration_none isName isEnd rest i
  | .initialized isKeyword isName isSign isEnd value => by
    intro n rest free deep
    simp only [List.length_append, List.length_cons, List.length_nil] at deep
    obtain ⟨n, rfl⟩ := exists_shallower deep (by omega)
    simp only [Reading.statement, statementOf, run_bind, List.cons_append, List.append_assoc,
      List.nil_append, peek_eq, List.headD_cons, isKeyword]
    exact declaration_some isName isSign isEnd
      ((value.follows stop).whole rest isEnd (by decide) (by omega))
  | .function isKeyword isName function => by
    intro n rest free deep
    simp only [List.length_cons] at deep
    obtain ⟨n, rfl⟩ := exists_shallower deep (by omega)
    simp only [Reading.statement, statementOf, run_bind, List.cons_append, peek_eq,
      List.headD_cons, isKeyword, functionDeclaration, run_get, List.tail_cons, List.head?_cons,
      isName, if_true, advance_eq, function.reads stop (by omega : _ ≤ n + 4), run_pure]
  | .block isStart isStop content => by
    intro n rest free deep
    simp only [List.length_append, List.length_cons, List.length_nil] at deep
    obtain ⟨n, rfl⟩ := exists_shallower deep (by omega)
    simp only [Reading.statement, statementOf, run_bind, List.cons_append, List.append_assoc,
      List.nil_append, peek_eq, List.headD_cons, isStart, advance_eq, List.tail_cons,
      content.reads stop isStop (by omega : _ ≤ n), run_pure]
  | .ifOnly isKeyword isOpening isClosing test branch => by
    intro n rest free deep
    simp only [List.length_append, List.length_cons] at deep
    obtain ⟨n, rfl⟩ := exists_shallower deep (by omega)
    simp only [Reading.statement, List.cons_append, List.append_assoc]
    rw [ifElse_of_branch isKeyword isOpening isClosing
      ((test.follows stop).whole _ isClosing (by decide) (by omega))
      (branch.reads stop (fun _ => free rfl) (by omega))]
    simp only [run_bind, accept_of_ne (free rfl), Bool.false_eq_true, if_false, run_pure]
  | .ifElse isKeyword isOpening isClosing isElse test branch other => by
    intro n rest free deep
    simp only [List.length_append, List.length_cons] at deep
    obtain ⟨n, rfl⟩ := exists_shallower deep (by omega)
    simp only [Reading.statement, List.cons_append, List.append_assoc]
    rw [ifElse_of_branch isKeyword isOpening isClosing
      ((test.follows stop).whole _ isClosing (by decide) (by omega))
      (branch.reads stop nofun (by omega))]
    simp only [run_bind, accept_of_kind isElse, if_true,
      some_map (other.reads stop free (by omega : _ ≤ n)), run_pure]
  | .whileLoop isKeyword isOpening isClosing test body => by
    intro n rest free deep
    simp only [List.length_append, List.length_cons] at deep
    obtain ⟨n, rfl⟩ := exists_shallower deep (by omega)
    simp only [Reading.statement, List.cons_append, List.append_assoc]
    exact whileLoop_of_body isKeyword isOpening isClosing
      ((test.follows stop).whole _ isClosing (by decide) (by omega))
      (body.reads stop free (by omega))
  | .forLoop isKeyword isOpening isEnd isClosing start test onward body => by
    intro n rest free deep
    simp only [List.length_append, List.length_cons] at deep
    obtain ⟨n, rfl⟩ := exists_shallower deep (by omega)
    simp only [Reading.statement, List.cons_append, List.append_assoc]
    exact forLoop_of_body isKeyword isOpening isEnd isClosing (start.reads stop (by omega))
      ((test.follows stop).clause test isEnd (by decide) (by omega))
      (onward.reads stop isClosing (by decide) (by omega)) (body.reads stop free (by omega))
  | .endlessLoop isKeyword isOpening isEnd isClosing start onward body => by
    intro n rest free deep
    simp only [List.length_append, List.length_cons] at deep
    obtain ⟨n, rfl⟩ := exists_shallower deep (by omega)
    simp only [Reading.statement, List.cons_append, List.append_assoc]
    exact forLoop_of_body isKeyword isOpening isEnd isClosing (start.reads stop (by omega))
      (absentAt_none _ isEnd _ _)
      (onward.reads stop isClosing (by decide) (by omega)) (body.reads stop free (by omega))
  | .breakLoop isKeyword isEnd | .continueLoop isKeyword isEnd => by
    intro n rest free deep
    simp only [List.length_cons, List.length_nil] at deep
    obtain ⟨n, rfl⟩ := exists_shallower deep (by omega)
    simp only [Reading.statement, statementOf, run_bind, List.cons_append, List.nil_append,
      peek_eq, List.headD_cons, isKeyword, advance_eq, List.tail_cons,
      want_of_kind .breakEnd isEnd, want_of_kind .continueEnd isEnd, run_pure]
  | .returnValue isKeyword isEnd result => by
    intro n rest free deep
    simp only [List.length_append, List.length_cons, List.length_nil] at deep
    obtain ⟨n, rfl⟩ := exists_shallower deep (by omega)
    simp only [Reading.statement, statementOf, run_bind, List.cons_append, List.append_assoc,
      List.nil_append, peek_eq, List.headD_cons, isKeyword, Reading.returnValue, advance_eq,
      List.tail_cons, result.reads stop isEnd (by decide) (by omega : _ ≤ n),
      want_of_kind .returnEnd isEnd, run_pure]

theorem Statements.reads {ts : List Token} {ss : List Stmt} {i j : Nat} (stop : Token) :
    Statements ts ss i j → ReadsBody stop ts ss i j
  | .nil => by
    intro n closing rest isClosing deep
    obtain ⟨n, rfl⟩ := exists_shallower deep (by omega)
    simp only [Reading.body, run_bind, peek_eq, List.nil_append, List.headD_cons, isClosing,
      true_or, if_true, want_of_kind .blockEnd isClosing, run_pure]
  | .cons (i := i) first others => by
    intro n closing rest isClosing deep
    simp only [List.length_append] at deep
    obtain ⟨n, rfl⟩ := exists_shallower deep (by omega)
    have next : ((closing :: rest).headD stop).kind ≠ .elseWord := by
      rw [List.headD_cons, isClosing]; decide
    have positive := first.length_pos
    rw [List.append_assoc]
    exact body_of_statement first
      (first.reads stop (fun _ => others.next_ne next) (by omega))
      (others.reads stop isClosing (by omega))

end

/-- Statements are read up to the end of the tokens. -/
theorem Statements.program {ts : List Token} {p : Program} {i j : Nat}
    (derived : Statements ts p i j) (isStop : stop.kind = .eof) {depth : Nat}
    (deep : 4 * ts.length ≤ depth) {count : Nat} (enough : ts.length < count) :
    Reading.program depth count ⟨ts, stop, i⟩ = .ok p ⟨[], stop, j⟩ := by
  obtain ⟨count, rfl⟩ := Nat.exists_eq_add_of_le' (Nat.succ_le_of_lt (Nat.zero_lt_of_lt enough))
  induction p generalizing ts i count with
  | nil =>
    cases derived
    simp only [Reading.program, run_bind, check_eq, List.headD_nil, isStop, decide_true, if_true,
      run_pure]
  | cons s p ih =>
    cases derived with
    | cons first others =>
      rw [List.length_append] at deep enough
      have positive := first.length_pos
      obtain ⟨count, rfl⟩ := Nat.exists_eq_add_of_le' (by omega : 1 ≤ count)
      have next : (([] : List Token).headD stop).kind ≠ .elseWord := by
        rw [List.headD_nil, isStop]; decide
      have read := first.reads stop (fun _ => by simpa using others.next_ne next)
        (by omega : _ ≤ depth)
      have more := ih others (by omega) count (by omega)
      obtain ⟨t, ts, rfl, starts⟩ := first.first
      have goesOn : ¬ t.kind = .eof := fun is => starts (by rw [is]; decide)
      rw [Reading.program, run_bind, check_eq]
      simp only [List.cons_append, List.headD_cons, goesOn, decide_false, Bool.false_eq_true,
        if_false]
      rw [List.cons_append] at read
      simp only [run_bind, read, after, EStateM.adaptExcept, more, run_pure]

end Lox.Grammar
