import Mathlib.Data.List.TakeWhile
import Lox.Proofs.Grammar.Depth
import Lox.Proofs.Grammar.Exact
import Lox.Proofs.Joining.Texts
import Lox.Proofs.Sessions.Stages

/-!
# An expression and the statement of it

A text is an expression exactly if it becomes a program of one statement, that expression, when a
semicolon is put on a line below it. Expressions and programs are read by readers of their own, and
so both are compared with the grammar. Main statement: the two ways to read the text find the same
tree with the same numbers, and a text that is no expression has defects or an error of grammar.
-/

namespace Lox

/-! ## A semicolon on a line below -/

/-- A piece is an open string only if a quote starts it and none follows. -/
theorem unquoted_of_openString {c : Char} {rest : List Char}
    (isOpen : (firstPiece c rest).shape = .openString) : c = '"' ∧ '"' ∉ rest := by
  unfold firstPiece at isOpen
  split at isOpen
  · cases isOpen
  · split at isOpen
    · split at isOpen <;> cases isOpen
    · split at isOpen
      · unfold slashPiece at isOpen
        split at isOpen <;> cases isOpen
      · split at isOpen
        · cases isOpen
        · split at isOpen
          · next isQuote =>
            unfold stringPiece at isOpen
            dsimp only at isOpen
            split at isOpen
            · next none =>
              refine ⟨isQuote, fun member => ?_⟩
              simpa using List.dropWhile_eq_nil_iff.1 none '"' member
            · cases isOpen
          · split at isOpen
            · cases isOpen
            · split at isOpen <;> cases isOpen

/-- Without another quote, a quote starts an open string. -/
theorem openString_of_unquoted {rest : List Char} (unquoted : '"' ∉ rest) :
    (firstPiece '"' rest).shape = .openString := by
  have none : rest.dropWhile (· != '"') = [] := by
    rw [List.dropWhile_eq_nil_iff]
    intro c member
    exact bne_iff_ne.2 fun isQuote => unquoted (isQuote ▸ member)
  have isString : firstPiece '"' rest = stringPiece rest := rfl
  rw [isString, stringPiece, none]

/-- A text has no defects if there are none with a line without quotes under it. -/
theorem fine_of_append_newline {text more : List Char} (unquoted : '"' ∉ more)
    (fine : ∀ p ∈ pieces (text ++ '\n' :: more), p.Fine) : ∀ p ∈ pieces text, p.Fine := by
  induction text using pieces.induct with
  | case1 =>
    rw [pieces]
    exact fun _ member => absurd member List.not_mem_nil
  | case2 c rest piece ih =>
    rw [List.cons_append, pieces] at fine
    obtain ⟨first, others⟩ := List.forall_mem_cons.1 fine
    have closed : (firstPiece c rest).shape ≠ .openString := by
      -- An open string would go on through the line under it.
      intro isOpen
      obtain ⟨rfl, none⟩ := unquoted_of_openString isOpen
      refine first.closed (openString_of_unquoted ?_)
      simp [none, unquoted]
    have same := firstPiece_append_newline closed more
    have inside : piece.text.length ≤ (c :: rest).length := (firstPiece_isPrefix c rest).length_le
    have onward : (c :: rest ++ '\n' :: more).drop piece.text.length =
        (c :: rest).drop piece.text.length ++ '\n' :: more := List.drop_append_of_le_length inside
    rw [same, ← List.cons_append, onward] at others
    rw [same] at first
    rw [pieces]
    exact List.forall_mem_cons.2 ⟨first, ih others⟩

theorem tokenize_semicolon :
    tokenize [';'] = .ok ⟨[⟨.semicolon, ";", .nil, 1⟩], endMark 1⟩ := by
  have first : pieces [';'] = [⟨.token .semicolon .nil, [';']⟩] := by cbv
  rw [tokenize_eq_ok_iff, first]
  refine ⟨?_, rfl⟩
  rw [List.forall_mem_singleton]
  exact fun line => rfl

/-- A semicolon on a line below a text adds a token to those of the text. -/
theorem tokenize_append_semicolon {text : List Char} {stream : Stream}
    (scanned : tokenize text = .ok stream) :
    ∃ semicolon stop : Token, semicolon.kind = .semicolon ∧
      tokenize (text ++ ['\n', ';']) = .ok ⟨stream.tokens ++ [semicolon], stop⟩ := by
  obtain ⟨stop, together⟩ := tokenize_append_newline scanned tokenize_semicolon
  exact ⟨_, stop, rfl, together⟩

/-- A semicolon on a line below a text hides none of its defects. -/
theorem exists_tokenize_of_append_semicolon {text : List Char} {whole : Stream}
    (scanned : tokenize (text ++ ['\n', ';']) = .ok whole) :
    ∃ stream, tokenize text = .ok stream := by
  have fine := (tokenize_eq_ok_iff.1 scanned).1
  exact ⟨_, tokenize_eq_ok_iff.2 ⟨fine_of_append_newline (by decide) fine, rfl⟩⟩

namespace Grammar

open Reading

/-! ## Expressions by themselves -/

/-- The expression that a stream is, is the one that its tokens derive. -/
theorem expression_eq_ok_iff {ts : List Token} {stop : Token} (isStop : stop.kind = .eof)
    (inside : ∀ t ∈ ts, t.kind ≠ .eof) (e : Expr) (i j : Nat) :
    Stream.expression ⟨ts, stop⟩ i = (.ok e, j) ↔ Expression .expression ts e i j := by
  constructor
  · intro isExpression
    simp only [Stream.expression, Stream.read, EStateM.run] at isExpression
    split at isExpression
    · next ran =>
      cases isExpression
      obtain ⟨e', middle, first, atEnd⟩ := bind_eq_ok.1 ran
      obtain ⟨us, rest, k, rfl, rfl, derived, _⟩ :=
        (reads_all isStop _).expressions Level.none (by decide) first
      have whole : Expression .expression us e' i k := derived
      rw [bind_of_ok (check_eq _ _ _ _)] at atEnd
      split at atEnd
      · next ended =>
        obtain ⟨rfl, rfl⟩ := pure_eq_ok.1 atEnd
        cases rest with
        | nil => simpa using whole
        | cons t rest => exact absurd (of_decide_eq_true ended) (inside t (by simp))
      · cases atEnd
    · cases isExpression
  · intro derived
    have deep : 4 * ts.length ≤ 4 * ts.length + 4 := Nat.le_add_right _ _
    have ends : Stops (min Level.none Tier.expression.reach) ((([] : List Token).headD stop).kind) := by
      intro joint found
      rw [List.headD_nil, isStop] at found
      cases found
    have first : expression (4 * ts.length + 4) Level.none ⟨ts ++ [], stop, i⟩ =
        .ok e ⟨[], stop, j⟩ := (derived.follows stop).read (Nat.zero_le _) (Nat.le_refl _) ends deep
    rw [List.append_nil] at first
    have whole : loneExpression (4 * ts.length + 4) ⟨ts, stop, i⟩ = .ok e ⟨[], stop, j⟩ := by
      rw [loneExpression, bind_of_ok first, bind_of_ok (check_eq _ _ _ _)]
      simp [isStop, run_pure]
    simp only [Stream.expression, Stream.read, Stream.depth, EStateM.run, whole]

/-- No expression is nested too deeply for its reader. -/
theorem expression_ne_tooDeep {stream : Stream} (isStop : stream.stop.kind = .eof) {i j : Nat}
    {e : SyntaxError} (refused : stream.expression i = (.error e, j)) : e.cause ≠ .tooDeep := by
  let k := stream.tokens.length + 1
  have deep : 3 * k ≤ stream.depth + 2 := by
    unfold Stream.depth
    omega
  have first : Shallow k 1 (expression stream.depth Level.none) :=
    (shallowAt stream.depth).expression k Level.none deep
  have shallow : Shallow k 1 (loneExpression stream.depth) := by
    refine first.before fun e => (shallow_check .eof).andThen fun ended => ?_
    split
    · exact shallow_pure e
    · exact shallow_peek.andThen fun t => shallow_fail (by simp) t
  have takes := shallow ⟨stream.tokens, stream.stop, i⟩ isStop (Nat.lt_succ_self _)
  unfold Stream.expression Stream.read EStateM.run at refused
  split at refused
  · cases refused
  · next ran =>
    cases refused
    rw [ran] at takes
    exact takes

/-! ## The statement of an expression -/

/-- The only statements with the tree of an expression are the expression and a semicolon. -/
theorem Statement.expression_iff {dangling : Bool} {ts : List Token} {e : Expr} {i j : Nat} :
    Statement dangling ts (.expression e) i j ↔ dangling = false ∧ ∃ us semicolon,
      ts = us ++ [semicolon] ∧ semicolon.kind = .semicolon ∧ Expression .expression us e i j := by
  constructor
  · intro derived
    -- The loop of a `for` statement is no expression, whatever its first clause.
    generalize isExpression : Stmt.expression e = s at derived
    cases derived with
    | expression isEnd value =>
      cases isExpression
      exact ⟨rfl, _, _, rfl, isEnd, value⟩
    | forLoop | endlessLoop =>
      unfold loop at isExpression
      split at isExpression <;> cases isExpression
    | _ => cases isExpression
  · rintro ⟨rfl, us, semicolon, rfl, isEnd, value⟩
    exact .expression isEnd value

/-- A program is an expression by itself exactly if its tokens are this expression before a last
semicolon. -/
theorem Statements.lone_expression_iff {ts : List Token} {semicolon : Token}
    (isEnd : semicolon.kind = .semicolon) {e : Expr} {i j : Nat} :
    Statements (ts ++ [semicolon]) [.expression e] i j ↔ Expression .expression ts e i j := by
  constructor
  · intro derived
    generalize whole : ts ++ [semicolon] = vs at derived
    cases derived with
    | cons first others =>
      cases others
      obtain ⟨_, us, last, rfl, _, value⟩ := Statement.expression_iff.1 first
      rw [List.append_nil] at whole
      obtain ⟨rfl, _⟩ := List.append_inj' whole rfl
      exact value
  · intro value
    rw [← List.append_nil (ts ++ [semicolon])]
    exact .cons (.expression isEnd value) .nil

end Grammar

/-! ## Both readings of a text -/

namespace Acting

/-- The expression that a text is. -/
def readExpression (source : String) : Acting Expr := do read (← tokens source).expression

/-- The program that a text is. -/
def readProgram (source : String) : Acting Program := do read (← tokens source).program

theorem read_tokens_eq_ok_iff {α : Type} {reading : Stream → Nat → Except SyntaxError α × Nat}
    {source : String} {s s' : Session} {x : α} :
    (do read (reading (← tokens source)) : Acting α) s = .ok x s' ↔
      ∃ stream n, tokenize source.toList = .ok stream ∧ reading stream s.nextId = (.ok x, n) ∧
        s' = { s with nextId := n } := by
  constructor
  · intro found
    cases scanned : tokenize source.toList with
    | error defects =>
      rw [run_bind_of_error (tokens_of_error scanned)] at found
      cases found
    | ok stream =>
      rw [run_bind_of_ok (tokens_of_ok scanned)] at found
      rcases outcome : reading stream s.nextId with ⟨error | y, n⟩
      · rw [read_of_error outcome] at found
        cases found
      · rw [read_of_ok outcome] at found
        cases found
        exact ⟨stream, n, rfl, outcome, rfl⟩
  · rintro ⟨stream, n, scanned, outcome, rfl⟩
    rw [run_bind_of_ok (tokens_of_ok scanned), read_of_ok outcome]

/-- A text is read as an expression exactly if with a semicolon on a line below it is read as the
one statement of this expression, with the same numbers of nodes; else it has defects, or an error
of grammar. -/
theorem readExpression_iff_readProgram (source : String) (s : Session) :
    (∀ (e : Expr) (s' : Session), readExpression source s = .ok e s' ↔
        readProgram (source ++ "\n;") s = .ok [.expression e] s') ∧
      ((∃ e s', readExpression source s = .ok e s') ∨
        (∃ defects, defects ≠ [] ∧ readExpression source s = .error (.lexical defects) s) ∨
        ∃ error s', error.cause ≠ .tooDeep ∧
          readExpression source s = .error (.grammar error) s') := by
  refine ⟨fun e s' => ?_, ?_⟩
  · have below : (source ++ "\n;").toList = source.toList ++ ['\n', ';'] := String.toList_append
    rw [readExpression, readProgram, read_tokens_eq_ok_iff, read_tokens_eq_ok_iff, below]
    constructor
    · rintro ⟨stream, n, scanned, isExpression, rfl⟩
      obtain ⟨semicolon, stop, isEnd, whole⟩ := tokenize_append_semicolon scanned
      have derived := (Grammar.expression_eq_ok_iff (tokenize_stop scanned)
        (tokenize_ne_eof scanned) e s.nextId n).1 isExpression
      refine ⟨_, n, whole, ?_, rfl⟩
      exact (Grammar.program_eq_ok_iff (tokenize_stop whole) (tokenize_ne_eof whole) _ _ _).2
        ((Grammar.Statements.lone_expression_iff isEnd).2 derived)
    · rintro ⟨together, n, scanned, isProgram, rfl⟩
      obtain ⟨stream, upper⟩ := exists_tokenize_of_append_semicolon scanned
      obtain ⟨semicolon, stop, isEnd, whole⟩ := tokenize_append_semicolon upper
      cases scanned.symm.trans whole
      have derived := (Grammar.program_eq_ok_iff (tokenize_stop whole) (tokenize_ne_eof whole)
        _ s.nextId n).1 isProgram
      refine ⟨stream, n, upper, ?_, rfl⟩
      exact (Grammar.expression_eq_ok_iff (tokenize_stop upper) (tokenize_ne_eof upper) _ _ _).2
        ((Grammar.Statements.lone_expression_iff isEnd).1 derived)
  · cases scanned : tokenize source.toList with
    | error defects =>
      refine .inr (.inl ⟨defects, tokenize_ne_nil scanned, ?_⟩)
      rw [readExpression, run_bind_of_error (tokens_of_error scanned)]
    | ok stream =>
      have onward : readExpression source s = read stream.expression s := by
        rw [readExpression, run_bind_of_ok (tokens_of_ok scanned)]
      rcases outcome : stream.expression s.nextId with ⟨error | e, n⟩
      · have proper := Grammar.expression_ne_tooDeep (tokenize_stop scanned) outcome
        exact .inr (.inr ⟨error, _, proper, onward.trans (read_of_error outcome)⟩)
      · exact .inl ⟨e, _, onward.trans (read_of_ok outcome)⟩

end Acting

end Lox
