import Lox.Proofs.Grammar.Appended
import Lox.Proofs.Places.Parser

/-!
# Parsers end at the first mark of the end

A parser does what the readers do on the tokens before the first mark of the end: it finds the same,
at the same place. As readers have nothing but these tokens, it never goes or looks past that mark,
whatever tokens stand behind it. And since the readers end, so does the parser.
-/

namespace Lox

/-! ## Parsers and readers -/

/-- A parser is where a cursor is. Its tokens are those of the cursor, with the mark of the end and
others behind them, and it has looked at nothing behind that mark. -/
structure Parser.At (before : List Token) (stop : Token) (after : List Token) (c : Cursor)
    (p : Parser) : Prop where
  tokens : p.tokens = before ++ stop :: after
  stop : c.stop = stop
  ahead : c.ahead = before.drop p.position
  position : p.position ≤ before.length
  nextId : c.nextId = p.nextId
  looked : ∀ i ∈ p.looked, i ≤ before.length

variable {before after : List Token} {stop : Token} {α β : Type}

namespace Parser.At

variable {c : Cursor} {p : Parser} (here : At before stop after c p)
include here

/-- The token at the place of the parser is the next one of the cursor. -/
theorem next : p.tokens.getD p.position default = c.ahead.headD c.stop := by
  rw [here.tokens, here.ahead, here.stop]
  rcases Nat.lt_or_eq_of_le here.position with inside | atEnd
  · rw [List.drop_eq_getElem_cons inside]
    simp [List.getD, List.getElem?_append_left inside, List.getElem?_eq_getElem inside]
  · simp [atEnd, List.getD]

/-- To look at a place up to the mark of the end changes nothing else. -/
theorem look {place : Nat} (near : place ≤ before.length) :
    At before stop after c { p with looked := place :: p.looked } where
  tokens := here.tokens
  stop := here.stop
  ahead := here.ahead
  position := here.position
  nextId := here.nextId
  looked := List.forall_mem_cons.2 ⟨near, here.looked⟩

/-- The token after the next one is that of the cursor, if the next one is no mark of the end. -/
theorem second (isStop : stop.kind = .eof) (goesOn : (c.ahead.headD c.stop).kind ≠ .eof) :
    min (p.position + 1) (p.tokens.length - 1) ≤ before.length ∧
      p.tokens.getD (min (p.position + 1) (p.tokens.length - 1)) default =
        c.ahead.tail.headD c.stop := by
  have further : p.position < before.length := by
    refine Nat.lt_of_le_of_ne here.position fun atEnd => goesOn ?_
    rw [here.ahead, atEnd, List.drop_length, here.stop]
    exact isStop
  have few : before.length < p.tokens.length := by
    rw [here.tokens, List.length_append, List.length_cons]
    omega
  have place : min (p.position + 1) (p.tokens.length - 1) = p.position + 1 := by omega
  have moved : At before stop after { c with ahead := c.ahead.tail }
      { p with position := p.position + 1 } :=
    ⟨here.tokens, here.stop, by rw [here.ahead, List.tail_drop], further, here.nextId, here.looked⟩
  rw [place]
  exact ⟨further, moved.next⟩

theorem position_eq : p.position = before.length - c.ahead.length := by
  have place := here.position
  rw [here.ahead, List.length_drop]
  omega

end Parser.At

/-- A parser does the same as a reader. -/
abbrev Parses (before : List Token) (stop : Token) (after : List Token) (reading : Reading α)
    (parsing : Parsing α) : Prop :=
  Together (Parser.At before stop after) (fun _ => False) reading parsing

/-- A parser does the same as a reader before a given token. -/
def ParsesBefore (t : Token) (before : List Token) (stop : Token) (after : List Token)
    (reading : Reading α) (parsing : Parsing α) : Prop :=
  ∀ c p, Parser.At before stop after c p → c.ahead.headD c.stop = t →
    EndTogether (Parser.At before stop after) (reading c) (parsing p)

theorem Together.before_token {reading : Reading α} {parsing : Parsing α}
    (parses : Parses before stop after reading parsing) (t : Token) :
    ParsesBefore t before stop after reading parsing := fun _ _ here _ => parses.ends here

/-! ## Single tokens -/

theorem parses_peek : Parses before stop after Reading.peek Parsing.peek := by
  intro c p here
  have found : Parsing.peek p =
      .ok (p.tokens.getD p.position default) { p with looked := p.position :: p.looked } := rfl
  rw [found, here.next]
  exact .inr (.ok _ (here.look here.position))

theorem parses_peek_bind {f : Token → Reading β} {g : Token → Parsing β}
    (each : ∀ t, ParsesBefore t before stop after (f t) (g t)) :
    Parses before stop after (Reading.peek >>= f) (Parsing.peek >>= g) := by
  intro c p here
  have found : Parsing.peek p =
      .ok (p.tokens.getD p.position default) { p with looked := p.position :: p.looked } := rfl
  rw [run_bind_of_ok found, here.next]
  exact .inr (each _ c _ (here.look here.position) rfl)

theorem parses_freshId : Parses before stop after Reading.freshId Parsing.freshId := by
  intro c p here
  have given : Reading.freshId c = .ok p.nextId { c with nextId := p.nextId + 1 } := by
    rw [← here.nextId]
    rfl
  rw [given]
  exact .inr (.ok p.nextId ⟨here.tokens, here.stop, here.ahead, here.position, rfl, here.looked⟩)

theorem parses_fail (cause : SyntaxError.Cause) (found : Token) :
    Parses before stop after (Reading.fail cause found : Reading α) (Parsing.fail cause found) :=
  together_throw _

theorem parses_check (kind : Kind) :
    Parses before stop after (Reading.check kind) (Parsing.check kind) :=
  parses_peek.bind fun _ => together_pure _

section
variable (isStop : stop.kind = .eof) (inside : ∀ t ∈ before, t.kind ≠ .eof)
include isStop inside

theorem parses_advance : Parses before stop after Reading.advance Parsing.advance := by
  intro c p here
  have isNext := here.next
  have looked := here.look here.position
  have first : Reading.advance c =
      .ok (c.ahead.headD c.stop) { c with ahead := c.ahead.tail } := rfl
  have second : Parsing.advance p =
      .ok (p.tokens.getD p.position default)
        { p with
          position :=
            if (p.tokens.getD p.position default).kind ≠ .eof then p.position + 1 else p.position
          looked := p.position :: p.looked } := by
    unfold Parsing.advance
    rw [run_bind_of_ok (rfl : Parsing.peek p = .ok _ _)]
    by_cases isMark : (p.tokens.getD p.position default).kind = .eof
    · simp only [isMark, ne_eq, not_true_eq_false, if_false]
      rfl
    · simp only [isMark, ne_eq, not_false_eq_true, if_true]
      rfl
  rw [first, second, isNext]
  refine .inr (.ok _ ?_)
  rcases Nat.lt_or_eq_of_le here.position with further | atEnd
  · have goesOn : (c.ahead.headD c.stop).kind ≠ .eof := by
      rw [here.ahead, List.drop_eq_getElem_cons further]
      exact inside _ (List.getElem_mem further)
    simp only [goesOn, ne_eq, not_false_eq_true, if_true]
    refine ⟨here.tokens, here.stop, ?_, further, here.nextId, looked.looked⟩
    rw [here.ahead, List.tail_drop]
  · have nothing : c.ahead = [] := by rw [here.ahead, atEnd, List.drop_length]
    have stays : (c.ahead.headD c.stop).kind = .eof := by
      rw [nothing, here.stop]
      exact isStop
    simp only [stays, ne_eq, not_true_eq_false, if_false]
    refine ⟨here.tokens, here.stop, ?_, here.position, here.nextId, looked.looked⟩
    rw [nothing, atEnd, List.drop_length]
    rfl

theorem parses_accept (kind : Kind) :
    Parses before stop after (Reading.accept kind) (Parsing.accept kind) := by
  refine (parses_check kind).bind fun found => ?_
  cases found with
  | true => exact (parses_advance isStop inside).bind fun _ => together_pure _
  | false => exact together_pure _

theorem parses_want (wanted : Wanted) :
    Parses before stop after (Reading.want wanted) (Parsing.want wanted) := by
  intro c p here
  have looked := here.look here.position
  have found : Parsing.check wanted.kind p =
      .ok (decide ((p.tokens.getD p.position default).kind = wanted.kind))
        { p with looked := p.position :: p.looked } := rfl
  rw [Parsing.want, run_bind_of_ok found, here.next, Reading.want,
    run_bind_of_ok (rfl : Reading.peek c = .ok (c.ahead.headD c.stop) c)]
  by_cases right : (c.ahead.headD c.stop).kind = wanted.kind
  · simp only [right, decide_true, if_true]
    exact parses_advance isStop inside c _ looked
  · simp only [right, decide_false, Bool.false_eq_true, if_false]
    rw [run_bind_of_ok (rfl : Parsing.peek _ = .ok _ _), looked.next]
    exact .inr (.error _ (looked.look here.position))

/-! ## Lists -/

section
variable {item : Reading α} {item' : Parsing α} (each : Parses before stop after item item')
include each

theorem parses_commaSeparated (tooMany : SyntaxError.Cause) (count : Nat) :
    Parses before stop after (Reading.commaSeparated tooMany item count)
      (Parsing.commaSeparated tooMany item' count) := by
  induction count with
  | zero => exact parses_peek.bind fun _ => parses_fail _ _
  | succ more ih =>
    refine each.bind fun x => (parses_accept isStop inside .comma).bind fun found => ?_
    cases found with
    | true => exact ih.bind fun _ => together_pure _
    | false => exact together_pure _

theorem parses_listed (tooMany : SyntaxError.Cause) (closing : Wanted) :
    Parses before stop after (Reading.listed tooMany closing item)
      (Parsing.listed tooMany closing item') := by
  refine (parses_check closing.kind).bind fun found => ?_
  cases found with
  | true =>
    exact (together_pure []).bind fun _ => (parses_want isStop inside closing).bind fun _ =>
      together_pure _
  | false =>
    exact (parses_commaSeparated isStop inside each _ _).bind fun _ =>
      (parses_want isStop inside closing).bind fun _ => together_pure _

omit isStop inside in
theorem parses_absentAt (kind : Kind) :
    Parses before stop after (Reading.absentAt kind item) (Parsing.absentAt kind item') := by
  refine (parses_check kind).bind fun found => ?_
  cases found with
  | true => exact together_pure none
  | false => exact each.bind fun _ => together_pure _

end

theorem parses_jump (wanted : Wanted) (jump : Token → Stmt) :
    Parses before stop after
      (do
        let keyword ← Reading.advance
        let _ ← Reading.want wanted
        return jump keyword)
      (do
        let keyword ← Parsing.advance
        let _ ← Parsing.want wanted
        return jump keyword) :=
  (parses_advance isStop inside).bind fun _ => (parses_want isStop inside _).bind fun _ =>
    together_pure _

/-! ## Parts with given parsers of expressions and statements -/

section
variable {expression : Nat → Reading Expr} {expression' : Nat → Parsing Expr}
  {statement : Reading Stmt} {statement' : Parsing Stmt}
  {body : Reading (List Stmt)} {body' : Parsing (List Stmt)}
  (onExpression : ∀ above, Parses before stop after (expression above) (expression' above))
  (onStatement : Parses before stop after statement statement')
  (onBody : Parses before stop after body body')

section
include onBody

theorem parses_block :
    Parses before stop after (Reading.want .bodyStart >>= fun _ => body) (Parsing.block body') :=
  (parses_want isStop inside .bodyStart).bind fun _ => onBody

theorem parses_function (keyword : Token) (name : Option Token) :
    Parses before stop after (Reading.function body keyword name)
      (Parsing.function body' keyword name) := by
  refine (parses_want isStop inside _).bind fun _ =>
    (parses_listed isStop inside (parses_want isStop inside _) _ _).bind fun ⟨_, _⟩ => ?_
  dsimp only
  rw [Parsing.block, bind_assoc]
  exact (parses_want isStop inside .bodyStart).bind fun _ => onBody.bind fun _ =>
    parses_freshId.bind fun _ => together_pure _

/-- Before an opening brace it makes no difference that the parser wants one. -/
theorem parsesBefore_block {t : Token} (brace : t.kind = .leftBrace) :
    ParsesBefore t before stop after
      (Reading.advance >>= fun _ => body >>= fun ss => pure (Stmt.block ss))
      (Parsing.block body' >>= fun ss => pure (Stmt.block ss)) := by
  intro c p here isNext
  have taken : Reading.want .bodyStart c = Reading.advance c := by
    rw [Reading.want, run_bind_of_ok (rfl : Reading.peek c = .ok (c.ahead.headD c.stop) c), isNext]
    exact congrFun (if_pos brace) c
  have same : (Reading.advance >>= fun _ => body >>= fun ss => pure (Stmt.block ss)) c =
      ((Reading.want .bodyStart >>= fun _ => body) >>= fun ss => pure (Stmt.block ss)) c := by
    rw [bind_assoc, run_bind_of_ok (taken.trans rfl),
      run_bind_of_ok (rfl : Reading.advance c = .ok _ _)]
  rw [same]
  have both := (parses_block isStop inside onBody).bind fun ss =>
    together_pure (R := Parser.At before stop after) (Stmt.block ss)
  exact both.ends here

end

section
include onExpression

include onBody in
theorem parses_operandOf :
    Parses before stop after (Reading.operandOf expression body)
      (Parsing.operandOf expression' body') := by
  refine (parses_advance isStop inside).bind fun t => ?_
  cases Reading.atom? t with
  | some node => exact parses_freshId.bind fun _ => together_pure _
  | none =>
    dsimp only
    cases t.kind with
    | minus | bang =>
      exact (onExpression _).bind fun _ => parses_freshId.bind fun _ => together_pure _
    | leftParen =>
      exact (onExpression _).bind fun _ => (parses_want isStop inside _).bind fun _ =>
        parses_freshId.bind fun _ => together_pure _
    | funWord => exact parses_function isStop inside onBody t none
    | _ => exact parses_fail _ _

theorem parses_join (left : Expr) (t : Token) (joint : Joint) :
    Parses before stop after (Reading.join expression left t joint)
      (Parsing.join expression' left t joint) := by
  cases joint with
  | assignment =>
    refine (onExpression _).bind fun value => ?_
    cases left with
    | reference id name => exact parses_freshId.bind fun _ => together_pure _
    | _ => exact parses_fail _ _
  | logical level | binary level =>
    exact (onExpression _).bind fun _ => parses_freshId.bind fun _ => together_pure _
  | step => exact parses_freshId.bind fun _ => together_pure _
  | call =>
    exact (parses_listed isStop inside (onExpression _) _ _).bind fun _ =>
      parses_freshId.bind fun _ => together_pure _

theorem parses_expressionStatement :
    Parses before stop after (Reading.expressionStatement expression)
      (Parsing.expressionStatement expression') :=
  (onExpression _).bind fun _ => (parses_want isStop inside _).bind fun _ => together_pure _

theorem parses_declaration :
    Parses before stop after (Reading.declaration expression)
      (Parsing.declaration expression') := by
  refine (parses_advance isStop inside).bind fun _ => (parses_want isStop inside _).bind fun _ =>
    (parses_accept isStop inside .equal).bind fun found => ?_
  cases found with
  | true =>
    have initializer : Parses before stop after (some <$> expression Level.none)
        (some <$> expression' Level.none) := (onExpression _).bind fun e => together_pure (some e)
    exact initializer.bind fun _ => (parses_want isStop inside _).bind fun _ => together_pure _
  | false =>
    exact (together_pure none).bind fun _ => (parses_want isStop inside _).bind fun _ =>
      together_pure _

/-- The next token is no mark of the end, so that there is another one to be looked at. -/
theorem parsesBefore_functionDeclaration {t : Token} (goesOn : t.kind ≠ .eof)
    (onBody : Parses before stop after body body') :
    ParsesBefore t before stop after (Reading.functionDeclaration expression body)
      (Parsing.functionDeclaration expression' body') := by
  intro c p here isNext
  obtain ⟨near, isSecond⟩ := here.second isStop (isNext ▸ goesOn)
  have looked := here.look near
  rw [Parsing.functionDeclaration, run_bind_of_ok (rfl : Parsing.peekNext p = .ok _ _), isSecond]
  have advances : Parses before stop after Reading.advance Parsing.advance :=
    parses_advance isStop inside
  have named := advances.bind fun keyword => advances.bind fun name =>
    (parses_function isStop inside onBody keyword (some name)).bind fun f =>
      together_pure (Stmt.declaration name (some f))
  have unnamed := parses_expressionStatement isStop inside onExpression
  rw [Reading.functionDeclaration, run_bind_of_ok (rfl : (get : Reading Cursor) c = .ok c c)]
  cases isTail : c.ahead.tail with
  | nil =>
    have notNamed : c.stop.kind ≠ .identifier := by
      rw [here.stop, isStop]
      decide
    rw [List.headD_nil, if_neg notNamed]
    exact unnamed.ends looked
  | cons name rest =>
    rw [List.headD_cons]
    dsimp only [List.head?_cons]
    by_cases isName : name.kind = .identifier
    · rw [if_pos isName, if_pos isName]
      exact named.ends looked
    · rw [if_neg isName, if_neg isName]
      exact unnamed.ends looked

theorem parses_returnValue :
    Parses before stop after (Reading.returnValue expression)
      (Parsing.returnValue expression') :=
  (parses_advance isStop inside).bind fun _ => (parses_absentAt (onExpression _) _).bind fun _ =>
    (parses_want isStop inside _).bind fun _ => together_pure _

theorem parses_forInitializer :
    Parses before stop after (Reading.forInitializer expression)
      (Parsing.forInitializer expression') := by
  refine (parses_accept isStop inside .semicolon).bind fun found => ?_
  cases found with
  | true => exact together_pure none
  | false =>
    refine (parses_check .varWord).bind fun found => ?_
    cases found with
    | true => exact (parses_declaration isStop inside onExpression).bind fun _ => together_pure _
    | false =>
      exact (parses_expressionStatement isStop inside onExpression).bind fun _ => together_pure _

section
include onStatement

theorem parses_ifElse :
    Parses before stop after (Reading.ifElse expression statement)
      (Parsing.ifElse expression' statement') := by
  refine (parses_advance isStop inside).bind fun _ => (parses_want isStop inside _).bind fun _ =>
    (onExpression _).bind fun _ => (parses_want isStop inside _).bind fun _ =>
    onStatement.bind fun _ => (parses_accept isStop inside .elseWord).bind fun found => ?_
  cases found with
  | true =>
    have elseBranch : Parses before stop after (some <$> statement) (some <$> statement') :=
      onStatement.bind fun s => together_pure (some s)
    exact elseBranch.bind fun _ => together_pure _
  | false => exact (together_pure none).bind fun _ => together_pure _

theorem parses_whileLoop :
    Parses before stop after (Reading.whileLoop expression statement)
      (Parsing.whileLoop expression' statement') :=
  (parses_advance isStop inside).bind fun _ => (parses_want isStop inside _).bind fun _ =>
    (onExpression _).bind fun _ => (parses_want isStop inside _).bind fun _ =>
    onStatement.bind fun _ => together_pure _

theorem parses_forLoop :
    Parses before stop after (Reading.forLoop expression statement)
      (Parsing.forLoop expression' statement') := by
  refine (parses_advance isStop inside).bind fun _ => (parses_want isStop inside _).bind fun _ =>
    (parses_forInitializer isStop inside onExpression).bind fun _ =>
    (parses_absentAt (onExpression _) _).bind fun condition =>
    (parses_want isStop inside _).bind fun _ =>
    (parses_absentAt (onExpression _) _).bind fun _ => (parses_want isStop inside _).bind fun _ =>
    onStatement.bind fun _ => ?_
  cases condition with
  | some e => exact (together_pure e).bind fun _ => together_pure _
  | none =>
    dsimp only
    refine parses_freshId.bind fun _ => ?_
    exact (together_pure _).bind fun _ => together_pure _

include onBody

theorem parses_statementOf :
    Parses before stop after (Reading.statementOf expression statement body)
      (Parsing.statementOf expression' statement' body') := by
  refine parses_peek_bind fun t => ?_
  cases is : t.kind with
  | leftBrace => exact parsesBefore_block isStop inside onBody is
  | varWord => exact (parses_declaration isStop inside onExpression).before_token t
  | funWord =>
    have goesOn : t.kind ≠ .eof := by rw [is]; decide
    exact parsesBefore_functionDeclaration isStop inside onExpression goesOn onBody
  | ifWord => exact (parses_ifElse isStop inside onExpression onStatement).before_token t
  | whileWord => exact (parses_whileLoop isStop inside onExpression onStatement).before_token t
  | forWord => exact (parses_forLoop isStop inside onExpression onStatement).before_token t
  | breakWord => exact (parses_jump isStop inside .breakEnd Stmt.breakLoop).before_token t
  | continueWord => exact (parses_jump isStop inside .continueEnd Stmt.continueLoop).before_token t
  | returnWord => exact (parses_returnValue isStop inside onExpression).before_token t
  | _ => exact (parses_expressionStatement isStop inside onExpression).before_token t

end

end

end

end

/-! ## All parsers -/

/-- The parsers of a depth do the same as the readers of this depth. -/
structure ParsesAt (before : List Token) (stop : Token) (after : List Token) (n : Nat) : Prop where
  expression : ∀ above,
    Parses before stop after (Reading.expression n above) (Parsing.expression n above)
  chain : ∀ above left,
    Parses before stop after (Reading.chain n above left) (Parsing.chain n above left)
  statement : Parses before stop after (Reading.statement n) (Parsing.statement n)
  body : Parses before stop after (Reading.body n) (Parsing.body n)

section
variable (isStop : stop.kind = .eof) (inside : ∀ t ∈ before, t.kind ≠ .eof)
include isStop inside

theorem parsesAt (n : Nat) : ParsesAt before stop after n := by
  induction n with
  | zero =>
    have givesUp {α : Type} : Parses before stop after
        (Reading.peek >>= Reading.fail .tooDeep : Reading α) (Parsing.peek >>= Parsing.fail .tooDeep) :=
      parses_peek.bind fun _ => parses_fail _ _
    exact ⟨fun _ => givesUp, fun _ _ => givesUp, givesUp, givesUp⟩
  | succ n ih =>
    refine ⟨fun above => ?_, fun above left => ?_, ?_, ?_⟩
    · exact (parses_operandOf isStop inside ih.expression ih.body).bind fun left =>
        ih.chain above left
    · refine parses_peek.bind fun t => ?_
      cases t.kind.joint? with
      | none => exact together_pure left
      | some joint =>
        dsimp only
        by_cases tighter : above < joint.level
        · simp only [tighter, if_true]
          exact (parses_advance isStop inside).bind fun t =>
            (parses_join isStop inside ih.expression left t joint).bind fun e => ih.chain above e
        · simp only [tighter, if_false]
          exact together_pure left
    · exact parses_statementOf isStop inside ih.expression ih.statement ih.body
    · refine parses_peek.bind fun t => ?_
      by_cases atEnd : t.kind = .rightBrace ∨ t.kind = .eof
      · simp only [atEnd, if_true]
        exact (parses_want isStop inside _).bind fun _ => together_pure _
      · simp only [atEnd, if_false]
        exact ih.statement.bind fun _ => ih.body.bind fun _ => together_pure _

theorem parses_program (depth count : Nat) :
    Parses before stop after (Reading.program depth count) (Parsing.program depth count) := by
  induction count with
  | zero => exact parses_peek.bind fun _ => parses_fail _ _
  | succ count ih =>
    refine (parses_check .eof).bind fun found => ?_
    cases found with
    | true => exact together_pure []
    | false =>
      refine (parsesAt isStop inside depth).statement.bind fun s => ?_
      have others : Parses before stop after (Reading.after s (Reading.program depth count))
          (Parsing.after s (Parsing.program depth count)) := ih.adaptExcept fun _ => id
      exact others.bind fun _ => together_pure _

theorem parses_loneExpression (depth : Nat) :
    Parses before stop after (Reading.loneExpression depth) (Parsing.loneExpression depth) := by
  refine ((parsesAt isStop inside depth).expression _).bind fun e =>
    (parses_check .eof).bind fun found => ?_
  cases found with
  | true => exact together_pure e
  | false => exact parses_peek.bind fun _ => parses_fail _ _

end

/-! ## Calls -/

/-- What a parser can be called for, from outside or by itself. -/
inductive Call : Type → Type
  | program : Call Program
  | loneExpression : Call Expr
  | expression (above : Nat) : Call Expr
  | statement : Call Stmt
  | block : Call (List Stmt)

namespace Call

/-- The parser that is called, down to a depth. -/
def parsing (depth : Nat) : Call α → Parsing α
  | program => Parsing.program depth depth
  | loneExpression => Parsing.loneExpression depth
  | expression above => Parsing.expression depth above
  | statement => Parsing.statement depth
  | block => Parsing.block (Parsing.body depth)

/-- The reader that does the same. -/
def reading (depth : Nat) : Call α → Reading α
  | program => Reading.program depth depth
  | loneExpression => Reading.loneExpression depth
  | expression above => Reading.expression depth above
  | statement => Reading.statement depth
  | block => Reading.want .bodyStart >>= fun _ => Reading.body depth

/-- How many tokens a call takes at least if it returns; a program may be empty. -/
def least : Call α → Nat
  | program => 0
  | _ => 1

/-- What a call finds, with the place behind it and the number of the next node. -/
def outcome (depth : Nat) (call : Call α) (p : Parser) : Except SyntaxError α × Nat × Nat :=
  match call.parsing depth p with
  | .ok x q => (.ok x, q.position, q.nextId)
  | .error e q => (.error e, q.position, q.nextId)

end Call

theorem parses_call (isStop : stop.kind = .eof) (inside : ∀ t ∈ before, t.kind ≠ .eof)
    (call : Call α) (depth : Nat) :
    Parses before stop after (call.reading depth) (call.parsing depth) := by
  have all : ParsesAt before stop after depth := parsesAt isStop inside depth
  cases call with
  | program => exact parses_program isStop inside depth depth
  | loneExpression => exact parses_loneExpression isStop inside depth
  | expression above => exact all.expression above
  | statement => exact all.statement
  | block => exact parses_block isStop inside all.body

/-- With a depth that is enough for the tokens ahead, a call takes tokens or finds an error. -/
theorem Call.shallow (call : Call α) {k depth : Nat} (deep : 3 * k ≤ depth) :
    Reading.Shallow k call.least (call.reading depth) := by
  have all := Reading.shallowAt depth
  cases call with
  | program => exact Reading.shallow_program (by omega) (by omega)
  | loneExpression =>
    refine (all.expression k _ (by omega)).before fun e =>
      (Reading.shallow_check .eof).andThen fun found => ?_
    cases found with
    | true => exact Reading.shallow_pure e
    | false => exact Reading.shallow_peek.andThen fun _ => Reading.shallow_fail (by nofun) _
  | expression above => exact all.expression k above (by omega)
  | statement => exact all.statement k (by omega)
  | block =>
    exact (Reading.shallow_want _).before fun _ => (all.body _ (by omega)).loosen

/-- A call with a greater depth finds the same, unless the depth was too small. -/
theorem Call.sameUnless (call : Call α) (depth more : Nat) :
    SameUnless (fun e => e.cause = .tooDeep) (call.reading depth) (call.reading (depth + more)) := by
  have givesUp {α : Type} (y : Reading α) : SameUnless (fun e => e.cause = .tooDeep)
      (Reading.peek >>= Reading.fail .tooDeep) y := fun _ => .inl ⟨_, _, rfl, rfl⟩
  have all : Reading.RelatedAt _ depth (depth + more) :=
    Reading.deeper.relatedAt (.inr givesUp) depth
  cases call with
  | program => exact Reading.sameUnless_program depth more depth more
  | loneExpression => exact Reading.deeper.loneExpression all
  | expression above => exact all.expression above
  | statement => exact all.statement
  | block => exact SameUnless.bind (.refl _) fun _ => all.body

/-! ## Lists of tokens -/

/-- A list of tokens ends with a mark of the end. -/
def Marked (tokens : List Token) : Prop := tokens.getLast?.map Token.kind = some .eof

instance (tokens : List Token) : Decidable (Marked tokens) :=
  inferInstanceAs (Decidable (_ = _))

/-- The place of the first mark of the end. -/
def firstMark (tokens : List Token) : Nat := (tokens.takeWhile (·.kind != .eof)).length

/-- A depth that no call of a parser of a list exceeds. -/
def enoughDepth (tokens : List Token) : Nat := 4 * tokens.length + 4

/-- A parser before it takes a token. -/
def Parser.start (tokens : List Token) (nextId : Nat) : Parser := ⟨tokens, 0, nextId, []⟩

/-- A parser is not behind the first mark of the end, and it has not looked behind it. -/
structure Parser.Within (p : Parser) : Prop where
  position : p.position ≤ firstMark p.tokens
  looked : ∀ i ∈ p.looked, i ≤ firstMark p.tokens

theorem Parser.within_start (tokens : List Token) (nextId : Nat) : (start tokens nextId).Within :=
  ⟨Nat.zero_le _, by simp [start]⟩

theorem firstMark_append (after : List Token) (isStop : stop.kind = .eof)
    (inside : ∀ t ∈ before, t.kind ≠ .eof) :
    firstMark (before ++ stop :: after) = before.length := by
  unfold firstMark
  rw [List.takeWhile_append_of_pos (by simpa using inside)]
  simp [isStop]

theorem Marked.split {tokens : List Token} (marked : Marked tokens) :
    ∃ before stop after, tokens = before ++ stop :: after ∧ stop.kind = .eof ∧
      (∀ t ∈ before, t.kind ≠ .eof) ∧ Stream.ofList? tokens = some ⟨before, stop⟩ := by
  obtain ⟨last, isLast, atEnd⟩ := Option.map_eq_some_iff.1 marked
  have found : (tokens.find? (·.kind == .eof)).isSome :=
    List.find?_isSome.2 ⟨last, List.mem_of_getLast? isLast, by simpa using atEnd⟩
  obtain ⟨stop, isFirst⟩ := Option.isSome_iff_exists.1 found
  obtain ⟨isStop, before, after, rfl, inside⟩ := List.find?_eq_some_iff_append.1 isFirst
  have isStop : stop.kind = .eof := by simpa using isStop
  have inside : ∀ t ∈ before, t.kind ≠ .eof := by simpa using inside
  have isLast : (stop :: after).getLast? = some last := by
    simpa [List.getLast?_append, List.getLast?_cons] using isLast
  exact ⟨before, stop, after, rfl, isStop, inside,
    Stream.ofList?_append after inside isStop isLast atEnd⟩

/-! ## What comes of a call -/

/-- A cursor at the place of a parser. -/
def Parser.cursor (before : List Token) (stop : Token) (p : Parser) : Cursor :=
  ⟨before.drop p.position, stop, p.nextId⟩

/-- What a reader finds, with the place and the number of the next node as a parser has them. -/
def Cursor.outcome (before : List Token) :
    EStateM.Result SyntaxError Cursor α → Except SyntaxError α × Nat × Nat
  | .ok x c => (.ok x, before.length - c.ahead.length, c.nextId)
  | .error e c => (.error e, before.length - c.ahead.length, c.nextId)

/-- Beyond a depth that is enough, readers find the same. -/
theorem Call.reading_deeper (call : Call α) {c : Cursor} (isStop : c.stop.kind = .eof)
    {enough depth : Nat} (few : 3 * (c.ahead.length + 1) ≤ enough) (deep : enough ≤ depth) :
    call.reading depth c = call.reading enough c := by
  obtain ⟨more, rfl⟩ := Nat.exists_eq_add_of_le deep
  rcases call.sameUnless enough more c with ⟨e, c', refused, tooDeep⟩ | same
  · have takes := call.shallow few c isStop (Nat.lt_succ_self _)
    rw [refused] at takes
    exact absurd tooDeep takes
  · exact same

/-- What comes of a reader of a stream, with any depth that is enough. -/
theorem Call.outcome_stream (call : Call α) (isStop : stop.kind = .eof) {depth : Nat}
    (deep : (Stream.mk before stop).depth ≤ depth) (nextId : Nat) :
    let found := Cursor.outcome before (call.reading depth ⟨before, stop, nextId⟩)
    (found.1, found.2.2) =
      (Stream.mk before stop).read (call.reading (Stream.mk before stop).depth) nextId := by
  have few : 3 * (before.length + 1) ≤ (Stream.mk before stop).depth := by
    simp only [Stream.depth]
    omega
  rw [call.reading_deeper (c := ⟨before, stop, nextId⟩) isStop few deep, Stream.read, EStateM.run]
  cases call.reading _ ⟨before, stop, nextId⟩ with
  | ok x c => rfl
  | error e c => rfl

section
variable {p : Parser} (tokens : p.tokens = before ++ stop :: after) (isStop : stop.kind = .eof)

include tokens in
theorem Parser.cursor_few {depth : Nat} (deep : enoughDepth p.tokens ≤ depth) :
    3 * ((p.cursor before stop).ahead.length + 1) ≤ depth := by
  simp only [enoughDepth, tokens, List.length_append, List.length_cons] at deep
  simp only [Parser.cursor, List.length_drop]
  omega

include tokens isStop

variable (inside : ∀ t ∈ before, t.kind ≠ .eof)
include inside

theorem Parser.firstMark_eq : firstMark p.tokens = before.length := by
  rw [tokens, firstMark_append after isStop inside]

variable (within : p.Within)
include within

/-- A parser is at the place of its cursor. -/
theorem Parser.at_cursor : p.At before stop after (p.cursor before stop) := by
  have position := within.position
  have looked := within.looked
  rw [p.firstMark_eq tokens isStop inside] at position looked
  exact ⟨tokens, rfl, rfl, position, rfl, looked⟩

/-- A call does the same as its reader. -/
theorem Call.ends (call : Call α) (depth : Nat) :
    EndTogether (Parser.At before stop after) (call.reading depth (p.cursor before stop))
      (call.parsing depth p) :=
  (parses_call isStop inside call depth).ends (p.at_cursor tokens isStop inside within)

/-- What comes of a call has to do with the tokens before the first mark of the end only. -/
theorem Call.outcome_eq (call : Call α) (depth : Nat) :
    call.outcome depth p = Cursor.outcome before (call.reading depth (p.cursor before stop)) := by
  have ends := call.ends tokens isStop inside within depth
  unfold Call.outcome
  generalize call.parsing depth p = result at ends
  generalize call.reading depth _ = result' at ends
  cases ends with
  | ok x here => simp only [Cursor.outcome, here.position_eq, here.nextId]
  | error e here => simp only [Cursor.outcome, here.position_eq, here.nextId]

/-- However a call ends, the parser has not gone or looked past the first mark of the end. -/
theorem Call.stays_within (call : Call α) (depth : Nat) :
    (stateLeft (call.parsing depth p)).tokens = p.tokens ∧
      (stateLeft (call.parsing depth p)).Within := by
  obtain ⟨c, here⟩ : ∃ c, (stateLeft (call.parsing depth p)).At before stop after c := by
    have ends := call.ends tokens isStop inside within depth
    generalize call.parsing depth p = result at ends
    generalize call.reading depth _ = result' at ends
    cases ends with
    | ok x here => exact ⟨_, here⟩
    | error e here => exact ⟨_, here⟩
  have mark := Parser.firstMark_eq here.tokens isStop inside
  exact ⟨here.tokens.trans tokens.symm, mark ▸ here.position, mark ▸ here.looked⟩

/-- A call that returns has taken tokens. -/
theorem Call.progress (call : Call α) {depth : Nat} {x : α} {q : Parser}
    (returned : call.parsing depth p = .ok x q) : p.position + call.least ≤ q.position := by
  have ends := call.ends tokens isStop inside within depth
  rw [returned] at ends
  cases found : call.reading depth (p.cursor before stop) with
  | error e c =>
    rw [found] at ends
    cases ends
  | ok y c =>
    rw [found] at ends
    cases ends with
    | ok _ there =>
      -- With a depth that is enough as well the reader returns the same.
      have few := p.cursor_few tokens (Nat.le_add_left (enoughDepth p.tokens) depth)
      have takes := call.shallow few _ isStop (Nat.lt_succ_self _)
      rcases call.sameUnless depth (enoughDepth p.tokens) (p.cursor before stop) with
        ⟨e, c, refused, _⟩ | same
      · rw [found] at refused
        cases refused
      · rw [same, found] at takes
        have place := (p.at_cursor tokens isStop inside within).position
        have behind := there.position_eq
        have taken := takes.2
        simp only [Parser.cursor, List.length_drop] at taken
        omega

end

/-- A parser ends, stays within its tokens and does not look past the first mark of the end. Whatever
it is called for, from any place up to that mark, there is a depth that is enough. At any depth it
looks at places up to the mark only, and a call that returns has taken a token. What it finds, a tree
or an error with the statements before it, stays the same with any other tokens behind the mark. And
what it finds from the start is what the readers make of the tokens before the mark. -/
theorem Parser.ends_at_firstMark {tokens : List Token} (marked : Marked tokens) :
    firstMark tokens < tokens.length ∧
    (∀ {α : Type} (call : Call α) (p : Parser), p.tokens = tokens → p.Within →
      (∀ depth, enoughDepth tokens ≤ depth →
        call.outcome depth p = call.outcome (enoughDepth tokens) p ∧
        ∀ e, (call.outcome depth p).1 = .error e → e.cause ≠ .tooDeep) ∧
      ∀ depth,
        (∀ i ∈ (stateLeft (call.parsing depth p)).looked,
          i < tokens.length ∧ i ≤ firstMark tokens) ∧
        (stateLeft (call.parsing depth p)).position ≤ firstMark tokens ∧
        (∀ x q, call.parsing depth p = .ok x q → p.position + call.least ≤ q.position) ∧
        ∀ tokens', Marked tokens' →
          tokens'.take (firstMark tokens + 1) = tokens.take (firstMark tokens + 1) →
          call.outcome depth { p with tokens := tokens' } = call.outcome depth p) ∧
    ∃ stream, Stream.ofList? tokens = some stream ∧ ∀ nextId,
      let p := start tokens nextId
      let depth := enoughDepth tokens
      ((Call.program.outcome depth p).1, (Call.program.outcome depth p).2.2) =
          stream.program nextId ∧
        ((Call.loneExpression.outcome depth p).1, (Call.loneExpression.outcome depth p).2.2) =
          stream.expression nextId := by
  obtain ⟨before, stop, after, isTokens, isStop, inside, split⟩ := marked.split
  have mark : firstMark tokens = before.length := by
    rw [isTokens, firstMark_append after isStop inside]
  have few : firstMark tokens < tokens.length := by
    rw [mark, isTokens, List.length_append, List.length_cons]
    omega
  refine ⟨few, fun call p same within => ⟨fun depth deep => ?_, fun depth => ?_⟩, ?_⟩
  · subst same
    have takes := call.shallow (p.cursor_few isTokens deep) _ isStop (Nat.lt_succ_self _)
    have outcome := call.outcome_eq isTokens isStop inside within
    constructor
    · rw [outcome, outcome,
        call.reading_deeper isStop (p.cursor_few isTokens (Nat.le_refl _)) deep]
    · intro e refused
      rw [outcome] at refused
      generalize call.reading depth _ = result at takes refused
      cases result with
      | ok x c => cases refused
      | error e' c =>
        cases refused
        exact takes
  · subst same
    obtain ⟨sameTokens, stays⟩ := call.stays_within isTokens isStop inside within depth
    have position := stays.position
    have looked := stays.looked
    rw [sameTokens] at position looked
    refine ⟨fun i seen => ⟨Nat.lt_of_le_of_lt (looked i seen) few, looked i seen⟩, position,
      fun x q => call.progress isTokens isStop inside within, fun tokens' marked' agree => ?_⟩
    obtain ⟨after', isTokens'⟩ : ∃ after', tokens' = before ++ stop :: after' := by
      refine ⟨tokens'.drop (before.length + 1), ?_⟩
      have start : tokens'.take (before.length + 1) = before ++ [stop] := by
        rw [← mark, agree, mark, isTokens, List.take_length_add_append]
        rfl
      rw [← List.singleton_append, ← List.append_assoc, ← start, List.take_append_drop]
    have within' : ({ p with tokens := tokens' } : Parser).Within := by
      have mark' := firstMark_append after' isStop inside
      constructor
      · simp only [isTokens', mark', ← mark, within.position]
      · simp only [isTokens', mark', ← mark]
        exact within.looked
    rw [call.outcome_eq isTokens' isStop inside within', call.outcome_eq isTokens isStop inside within]
    rfl
  · refine ⟨⟨before, stop⟩, split, fun nextId => ?_⟩
    have within := within_start tokens nextId
    have deep : (Stream.mk before stop).depth ≤ enoughDepth tokens := by
      simp only [enoughDepth, Stream.depth, isTokens, List.length_append, List.length_cons]
      omega
    have outcome {α : Type} (call : Call α) :=
      call.outcome_eq (p := start tokens nextId) isTokens isStop inside within (enoughDepth tokens)
    dsimp only
    rw [outcome, outcome]
    exact ⟨Call.program.outcome_stream isStop deep nextId,
      Call.loneExpression.outcome_stream isStop deep nextId⟩

/-- A function without a name behind it but for the mark of the end is no declared one, whatever name
stands behind that mark. -/
theorem Parser.function_before_mark :
    let keyword : Token := ⟨.funWord, "fun", .nil, 1⟩
    let name : Token := ⟨.identifier, "f", .nil, 1⟩
    let stop : Token := ⟨.eof, "", .nil, 1⟩
    let tokens := [keyword, stop, name, stop]
    Marked tokens ∧ firstMark tokens = 1 ∧
      (∀ i ∈ (stateLeft (Call.program.parsing 20 (start tokens 1))).looked, i ≤ 1) ∧
      Call.program.outcome 20 (start tokens 1) = Call.program.outcome 20 (start [keyword, stop] 1) := by
  intro keyword name stop tokens
  have marked : Marked tokens := by decide
  have ends := (ends_at_firstMark marked).2.1 Call.program (start tokens 1) rfl
    (within_start tokens 1)
  obtain ⟨looked, -, -, behind⟩ := ends.2 20
  exact ⟨marked, rfl, fun i seen => (looked i seen).2,
    (behind [keyword, stop] (by decide) rfl).symm⟩

end Lox
