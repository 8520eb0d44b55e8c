import Lox.Proofs.Grammar.Reads
import Lox.Proofs.Runs.Keeps

/-!
# No program is nested too deeply

A reader of some depth gives up when it is called too often before it reads a token. Three levels for
each token ahead are enough: an expression reads a token before it reads a function body, and a body
is one level above its statements, which are one level above their expressions.
-/

namespace Lox.Reading

variable {α β : Type}

/-- From a place a reader took at least `j` tokens, or it found an error. -/
def Takes (c : Cursor) (j : Nat) : EStateM.Result SyntaxError Cursor α → Prop
  | .ok _ c' => c'.stop = c.stop ∧ c'.ahead.length + j ≤ c.ahead.length
  | .error e _ => e.cause ≠ .tooDeep

/-- With fewer than `k` tokens ahead a reader takes at least `j` of them, or it finds an error. -/
def Shallow (k j : Nat) (x : Reading α) : Prop :=
  ∀ c : Cursor, c.stop.kind = .eof → c.ahead.length < k → Takes c j (x c)

/-- A reader that is called only before the given token. -/
def ShallowBefore (t : Token) (k j : Nat) (x : Reading α) : Prop :=
  ∀ c : Cursor, c.stop.kind = .eof → c.ahead.length < k → c.ahead.headD c.stop = t → Takes c j (x c)

/-! ## Rules -/

theorem Takes.after {c c' : Cursor} {i j : Nat} {result : EStateM.Result SyntaxError Cursor α}
    (takes : Takes c' j result) (sameStop : c'.stop = c.stop)
    (taken : c'.ahead.length + i ≤ c.ahead.length) : Takes c (i + j) result := by
  cases result with
  | ok a c'' =>
    obtain ⟨stop, rest⟩ := takes
    exact ⟨stop.trans sameStop, by omega⟩
  | error e c'' => exact takes

theorem Takes.fewer {c : Cursor} {i j : Nat} {result : EStateM.Result SyntaxError Cursor α}
    (takes : Takes c j result) (less : i ≤ j) : Takes c i result := by
  cases result with
  | ok a c' => exact ⟨takes.1, Nat.le_trans (Nat.add_le_add_left less _) takes.2⟩
  | error e c' => exact takes

section
variable {k i j : Nat}

theorem shallow_pure (a : α) : Shallow k 0 (pure a) := fun _ _ _ => ⟨rfl, Nat.le_refl _⟩

theorem shallow_fail {cause : SyntaxError.Cause} (proper : cause ≠ .tooDeep) (found : Token) :
    Shallow k j (fail cause found : Reading α) := fun _ _ _ => proper

/-- A reader may take more tokens than are asked for. -/
theorem Shallow.loosen {x : Reading α} (shallow : Shallow k j x) : Shallow k 0 x :=
  fun c isStop few => (shallow c isStop few).fewer (Nat.zero_le _)

/-- A reader may be called with fewer tokens ahead than it is ready for. -/
theorem Shallow.fewer {x : Reading α} (shallow : Shallow k j x) : Shallow (k - i) j x :=
  fun c isStop few => shallow c isStop (Nat.lt_of_lt_of_le few (Nat.sub_le _ _))

/-- What a first reader takes is not ahead of the second. -/
theorem Shallow.bind {x : Reading α} {f : α → Reading β} (first : Shallow k i x)
    (second : ∀ a, Shallow (k - i) j (f a)) : Shallow k (i + j) (x >>= f) := by
  intro c isStop few
  have taken := first c isStop few
  cases ran : x c with
  | ok a c' =>
    rw [ran] at taken
    obtain ⟨sameStop, taken⟩ := taken
    rw [bind_of_ok ran]
    have takes := second a c' (by rw [sameStop, isStop]) (by omega)
    exact takes.after sameStop taken
  | error e c' =>
    rw [ran] at taken
    rw [run_bind_of_error ran]
    exact taken

/-- The tokens that the first of two readers takes. -/
theorem Shallow.before {x : Reading α} {f : α → Reading β} (first : Shallow k j x)
    (second : ∀ a, Shallow (k - j) 0 (f a)) : Shallow k j (x >>= f) :=
  first.bind second

/-- The tokens that the second of two readers takes. -/
theorem Shallow.andThen {x : Reading α} {f : α → Reading β} (first : Shallow k i x)
    (second : ∀ a, Shallow k j (f a)) : Shallow k j (x >>= f) :=
  fun c isStop few =>
    (first.bind (fun a => (second a).fewer) c isStop few).fewer (Nat.le_add_left _ _)

theorem Shallow.map {x : Reading α} (shallow : Shallow k j x) (f : α → β) :
    Shallow k j (f <$> x) :=
  shallow.before fun _ => shallow_pure _

end

/-! ## Single tokens and lists -/

section
variable {k j : Nat}

theorem shallow_peek : Shallow k 0 peek := fun _ _ _ => ⟨rfl, Nat.le_refl _⟩

theorem shallow_freshId : Shallow k 0 freshId := fun _ _ _ => ⟨rfl, Nat.le_refl _⟩

theorem shallow_check (kind : Kind) : Shallow k 0 (check kind) :=
  shallow_peek.andThen fun _ => shallow_pure _

theorem shallow_advance : Shallow k 0 advance := by
  intro c _ _
  exact ⟨rfl, by simp⟩

theorem Shallow.before_token {x : Reading α} (shallow : Shallow k j x) (t : Token) :
    ShallowBefore t k j x := fun c isStop few _ => shallow c isStop few

theorem shallow_peek_bind {f : Token → Reading α} (each : ∀ t, ShallowBefore t k j (f t)) :
    Shallow k j (peek >>= f) :=
  fun c isStop few => each (c.ahead.headD c.stop) c isStop few rfl

/-- A token that is not the mark of the end is taken. -/
theorem shallowBefore_advance {f : Token → Reading α} {t : Token} (inside : t.kind ≠ .eof)
    (others : Shallow (k - 1) j (f t)) : ShallowBefore t k (1 + j) (advance >>= f) := by
  rintro ⟨ahead, stop, i⟩ isStop few rfl
  cases ahead with
  | nil => exact absurd isStop inside
  | cons t rest =>
    rw [bind_of_ok (advance_eq stop (t :: rest) i)]
    have takes := others ⟨rest, stop, i⟩ isStop (Nat.lt_sub_of_add_lt few)
    exact takes.after rfl (Nat.le_refl _)

/-- The token that is taken is not the mark of the end if that is an error. -/
theorem shallow_advance_bind {f : Token → Reading α}
    (inside : ∀ t, t.kind ≠ .eof → Shallow (k - 1) j (f t))
    (atEnd : ∀ t, t.kind = .eof → Shallow k (1 + j) (f t)) :
    Shallow k (1 + j) (advance >>= f) := by
  rintro ⟨ahead, stop, i⟩ isStop few
  by_cases ended : (ahead.headD stop).kind = .eof
  · have fewer : ahead.tail.length ≤ ahead.length := by simp
    have takes := atEnd _ ended ⟨ahead.tail, stop, i⟩ isStop (Nat.lt_of_le_of_lt fewer few)
    rw [bind_of_ok (advance_eq stop ahead i), ← Nat.zero_add (1 + j)]
    exact takes.after rfl fewer
  · exact shallowBefore_advance ended (inside _ ended) _ isStop few rfl

theorem shallow_accept (kind : Kind) : Shallow k 0 (accept kind) := by
  refine (shallow_check kind).andThen fun found => ?_
  cases found with
  | true => exact shallow_advance.andThen fun _ => shallow_pure _
  | false => exact shallow_pure _

theorem shallow_want (wanted : Wanted) : Shallow k 1 (want wanted) := by
  rintro ⟨ahead, stop, i⟩ isStop _
  rw [want_eq]
  by_cases found : (ahead.headD stop).kind = wanted.kind
  · obtain ⟨t, rest, rfl, _⟩ := headD_kind isStop (Wanted.kind_ne_eof wanted) found
    rw [if_pos found]
    exact ⟨rfl, Nat.le_refl _⟩
  · rw [if_neg found]
    exact nofun

theorem shallow_commaSeparated {tooMany : SyntaxError.Cause} (proper : tooMany ≠ .tooDeep)
    {item : Reading α} (each : Shallow k 0 item) (count : Nat) :
    Shallow k 0 (commaSeparated tooMany item count) := by
  induction count with
  | zero => exact shallow_peek.andThen fun _ => shallow_fail proper _
  | succ count ih =>
    refine each.andThen fun x => (shallow_accept .comma).andThen fun found => ?_
    cases found with
    | true => exact ih.andThen fun _ => shallow_pure _
    | false => exact shallow_pure _

theorem shallow_listed {tooMany : SyntaxError.Cause} (proper : tooMany ≠ .tooDeep)
    (closing : Wanted) {item : Reading α} (each : Shallow k 0 item) :
    Shallow k 1 (listed tooMany closing item) := by
  refine (shallow_check closing.kind).andThen fun found => ?_
  cases found with
  | true => exact (shallow_want closing).before fun _ => shallow_pure _
  | false =>
    exact (shallow_commaSeparated proper each _).andThen fun _ =>
      (shallow_want closing).before fun _ => shallow_pure _

theorem shallow_after {x : Reading α} (s : Stmt) (shallow : Shallow k j x) :
    Shallow k j (after s x) := by
  intro c isStop few
  have takes := shallow c isStop few
  unfold after EStateM.adaptExcept
  cases ran : x c with
  | ok a c' =>
    rw [ran] at takes
    exact takes
  | error e c' =>
    rw [ran] at takes
    exact takes

theorem shallow_absentAt {kind : Kind} {item : Reading α} (one : Shallow k 0 item) :
    Shallow k 0 (absentAt kind item) := by
  refine (shallow_check kind).andThen fun found => ?_
  cases found with
  | true => exact shallow_pure _
  | false => exact one.andThen fun _ => shallow_pure _

end

/-! ## Parts with given readers of expressions and statements -/

section
variable {k : Nat} {expression : Nat → Reading Expr} {statement : Reading Stmt}
  {body : Reading (List Stmt)}

theorem shallow_jump (wanted : Wanted) (jump : Token → Stmt) :
    Shallow k 1 (do
      let keyword ← advance
      let _ ← want wanted
      return jump keyword) :=
  shallow_advance.andThen fun _ => (shallow_want _).before fun _ => shallow_pure _

theorem shallow_function (onBody : Shallow (k - 1) 0 body) (keyword : Token) (name : Option Token) :
    Shallow k 1 (function body keyword name) := by
  refine (shallow_want _).before fun _ => ?_
  have parameter : Shallow (k - 1) 0 (want .parameterName) :=
    (shallow_want _).loosen
  refine (shallow_listed (by nofun) _ parameter).andThen fun _ => ?_
  exact (shallow_want _).andThen fun _ => onBody.andThen fun _ =>
    shallow_freshId.andThen fun _ => shallow_pure _

theorem shallow_operandOf (onExpression : ∀ level, Shallow (k - 1) 0 (expression level))
    (onBody : Shallow (k - 1) 0 body) : Shallow k 1 (operandOf expression body) := by
  refine shallow_advance_bind (j := 0) (fun t _ => ?_) fun t ended => ?_
  · cases atom? t with
    | some node => exact shallow_freshId.andThen fun _ => shallow_pure _
    | none =>
      dsimp only
      split
      · exact (onExpression _).andThen fun _ => shallow_freshId.andThen fun _ => shallow_pure _
      · exact (onExpression _).andThen fun _ => shallow_freshId.andThen fun _ => shallow_pure _
      · exact (onExpression _).andThen fun _ => (shallow_want _).andThen fun _ =>
          shallow_freshId.andThen fun _ => shallow_pure _
      · exact (shallow_function onBody.fewer t none).loosen
      · exact shallow_fail (by nofun) _
  · have noAtom : atom? t = none := by simp [atom?, ended]
    simp only [noAtom, ended]
    exact shallow_fail (by nofun) _

theorem shallow_join (onExpression : ∀ level, Shallow k 0 (expression level)) (left : Expr)
    (t : Token) (joint : Joint) : Shallow k 0 (join expression left t joint) := by
  cases joint with
  | assignment =>
    refine (onExpression _).andThen fun value => ?_
    cases left with
    | reference id name => exact shallow_freshId.andThen fun _ => shallow_pure _
    | _ => exact shallow_fail (by nofun) _
  | logical level | binary level =>
    exact (onExpression _).andThen fun _ => shallow_freshId.andThen fun _ => shallow_pure _
  | step => exact shallow_freshId.andThen fun _ => shallow_pure _
  | call =>
    exact (shallow_listed (by nofun) _ (onExpression _)).andThen fun _ =>
      shallow_freshId.andThen fun _ => shallow_pure _

section
variable (onExpression : ∀ level, Shallow k 0 (expression level))
include onExpression

theorem shallow_expressionStatement : Shallow k 1 (expressionStatement expression) :=
  (onExpression _).andThen fun _ => (shallow_want _).before fun _ => shallow_pure _

theorem shallow_declaration : Shallow k 1 (declaration expression) := by
  refine shallow_advance.andThen fun _ => (shallow_want _).before fun _ =>
    (shallow_accept .equal).andThen fun found => ?_
  cases found with
  | true =>
    exact ((onExpression _).fewer.map some).andThen fun _ =>
      (shallow_want _).andThen fun _ => shallow_pure _
  | false => exact (shallow_want _).andThen fun _ => shallow_pure _

theorem shallow_functionDeclaration (onBody : Shallow (k - 1) 0 body) :
    Shallow k 1 (functionDeclaration expression body) := by
  have got : Shallow k 0 (get : Reading Cursor) := fun _ _ _ => ⟨rfl, Nat.le_refl _⟩
  refine got.andThen fun c => ?_
  split
  · split
    · exact shallow_advance.andThen fun _ => shallow_advance.andThen fun _ =>
        (shallow_function onBody _ _).before fun _ => shallow_pure _
    · exact shallow_expressionStatement onExpression
  · exact shallow_expressionStatement onExpression

theorem shallow_returnValue : Shallow k 1 (returnValue expression) :=
  shallow_advance.andThen fun _ => (shallow_absentAt (onExpression _)).andThen fun _ =>
    (shallow_want _).before fun _ => shallow_pure _

theorem shallow_forInitializer : Shallow k 0 (forInitializer expression) := by
  refine (shallow_accept .semicolon).andThen fun found => ?_
  cases found with
  | true => exact shallow_pure _
  | false =>
    refine (shallow_check .varWord).andThen fun found => ?_
    cases found with
    | true => exact (shallow_declaration onExpression).andThen fun _ => shallow_pure _
    | false => exact (shallow_expressionStatement onExpression).andThen fun _ => shallow_pure _

section
variable (onStatement : Shallow (k - 1) 0 statement)
include onStatement

theorem shallow_ifElse : Shallow k 1 (ifElse expression statement) := by
  refine shallow_advance.andThen fun _ => (shallow_want _).before fun _ =>
    (onExpression _).fewer.andThen fun _ => (shallow_want _).andThen fun _ =>
    onStatement.andThen fun _ => (shallow_accept .elseWord).andThen fun found => ?_
  cases found with
  | true => exact (onStatement.map some).andThen fun _ => shallow_pure _
  | false => exact shallow_pure _

theorem shallow_whileLoop : Shallow k 1 (whileLoop expression statement) :=
  shallow_advance.andThen fun _ => (shallow_want _).before fun _ =>
    (onExpression _).fewer.andThen fun _ => (shallow_want _).andThen fun _ =>
    onStatement.andThen fun _ => shallow_pure _

theorem shallow_forLoop : Shallow k 1 (forLoop expression statement) := by
  refine shallow_advance.andThen fun _ => (shallow_want _).before fun _ =>
    (shallow_forInitializer fun level => (onExpression level).fewer).andThen fun first =>
    (shallow_absentAt (onExpression _).fewer).andThen fun condition =>
    (shallow_want _).andThen fun _ =>
    (shallow_absentAt (onExpression _).fewer).andThen fun increment =>
    (shallow_want _).andThen fun _ => onStatement.andThen fun body => ?_
  cases condition with
  | some e => exact shallow_pure _
  | none => exact shallow_freshId.andThen fun _ => shallow_pure _

theorem shallow_statementOf (onBody : Shallow (k - 1) 0 body) :
    Shallow k 1 (statementOf expression statement body) := by
  refine shallow_peek_bind fun t => ?_
  split
  · next brace =>
    have inside : t.kind ≠ .eof := by rw [brace]; decide
    refine shallowBefore_advance (j := 0) inside ?_
    exact onBody.andThen fun _ => shallow_pure _
  · exact (shallow_declaration onExpression).before_token t
  · exact (shallow_functionDeclaration onExpression onBody).before_token t
  · exact (shallow_ifElse onExpression onStatement).before_token t
  · exact (shallow_whileLoop onExpression onStatement).before_token t
  · exact (shallow_forLoop onExpression onStatement).before_token t
  · exact (shallow_jump _ _).before_token t
  · exact (shallow_jump _ _).before_token t
  · exact (shallow_returnValue onExpression).before_token t
  · exact (shallow_expressionStatement onExpression).before_token t

end

end

end

/-! ## All readers -/

/-- The readers of a depth, on as many tokens as they are deep enough for. -/
structure ShallowAt (n : Nat) : Prop where
  expression : ∀ k above, 3 * k ≤ n + 2 → Shallow k 1 (expression n above)
  chain : ∀ k above left, 3 * k ≤ n + 2 → Shallow k 0 (chain n above left)
  statement : ∀ k, 3 * k ≤ n + 1 → Shallow k 1 (statement n)
  body : ∀ k, 3 * k ≤ n → Shallow k 1 (body n)

section
variable {n k : Nat} (below : ShallowAt n)
include below

private theorem shallow_expression (above : Nat) (enough : 3 * k ≤ n + 3) :
    Shallow k 1 (expression (n + 1) above) := by
  refine (shallow_operandOf (fun level => ?_) ?_).before fun left => ?_
  · exact (below.expression _ level (by omega)).loosen
  · exact (below.body _ (by omega)).loosen
  · exact below.chain _ above left (by omega)

private theorem shallow_chain (above : Nat) (left : Expr) (enough : 3 * k ≤ n + 3) :
    Shallow k 0 (chain (n + 1) above left) := by
  refine shallow_peek_bind fun t => ?_
  split
  · next joint isJoint =>
    by_cases tighter : above < joint.level
    · have inside : t.kind ≠ .eof := by
        intro ended
        rw [ended] at isJoint
        cases isJoint
      have onExpression (level : Nat) : Shallow (k - 1) 0 (expression n level) :=
        (below.expression _ level (by omega)).loosen
      rw [if_pos tighter]
      have others := (shallow_join onExpression left t joint).andThen fun e =>
        below.chain _ above e (by omega)
      exact fun c isStop few next =>
        (shallowBefore_advance inside others c isStop few next).fewer (Nat.zero_le _)
    · rw [if_neg tighter]
      exact (shallow_pure left).before_token t
  · exact (shallow_pure left).before_token t

private theorem shallow_statement (enough : 3 * k ≤ n + 2) : Shallow k 1 (statement (n + 1)) := by
  refine shallow_statementOf (fun level => ?_) ?_ ?_
  · exact (below.expression _ level (by omega)).loosen
  · exact (below.statement _ (by omega)).loosen
  · exact (below.body _ (by omega)).loosen

private theorem shallow_body (enough : 3 * k ≤ n + 1) : Shallow k 1 (body (n + 1)) := by
  refine shallow_peek.andThen fun t => ?_
  dsimp only
  split
  · exact (shallow_want _).before fun _ => shallow_pure _
  · refine (below.statement _ (by omega)).before fun s => ?_
    exact (below.body _ (by omega)).andThen fun _ => shallow_pure _

end

theorem shallowAt (n : Nat) : ShallowAt n := by
  induction n with
  | zero =>
    have none {α : Type} {j : Nat} {x : Reading α} : Shallow 0 j x :=
      fun _ _ few => absurd few (Nat.not_lt_zero _)
    -- Without any depth there is not even the mark of the end to be read.
    constructor
    · intro k above enough
      obtain rfl : k = 0 := by omega
      exact none
    · intro k above left enough
      obtain rfl : k = 0 := by omega
      exact none
    · intro k enough
      obtain rfl : k = 0 := by omega
      exact none
    · intro k enough
      obtain rfl : k = 0 := by omega
      exact none
  | succ n ih =>
    exact ⟨fun _ above => shallow_expression ih above, fun _ above left => shallow_chain ih above left,
      fun _ => shallow_statement ih, fun _ => shallow_body ih⟩

theorem shallow_program {depth count k : Nat} (deep : 3 * k ≤ depth + 1) (long : k ≤ count) :
    Shallow k 0 (program depth count) := by
  induction count generalizing k with
  | zero =>
    obtain rfl : k = 0 := by omega
    exact fun _ _ few => absurd few (Nat.not_lt_zero _)
  | succ count ih =>
    refine (shallow_check .eof).andThen fun found => ?_
    cases found with
    | true => exact shallow_pure _
    | false =>
      have first := (shallowAt depth).statement k deep
      refine (first.before fun s => ?_).loosen
      exact (shallow_after s (ih (by omega) (by omega))).andThen fun _ => shallow_pure _

end Lox.Reading

namespace Lox

/-- No program is nested too deeply for its reader. -/
theorem Stream.program_ne_tooDeep {stream : Stream} (isStop : stream.stop.kind = .eof)
    {nextId n : Nat} {e : SyntaxError} (refused : stream.program nextId = (.error e, n)) :
    e.cause ≠ .tooDeep := by
  have deep : 3 * (stream.tokens.length + 1) ≤ stream.depth + 1 := by
    unfold Stream.depth
    omega
  have long : stream.tokens.length + 1 ≤ stream.depth := by
    unfold Stream.depth
    omega
  have takes := Reading.shallow_program deep long ⟨stream.tokens, stream.stop, nextId⟩ isStop
    (Nat.lt_succ_self _)
  unfold Stream.program Stream.read EStateM.run at refused
  split at refused
  · cases refused
  · next ran =>
    cases refused
    rw [ran] at takes
    exact takes

end Lox
