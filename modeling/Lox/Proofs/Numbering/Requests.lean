import Lox.Proofs.Grammar.Counted
import Lox.Proofs.Scopes.Sites
import Lox.Proofs.Scopes.Tables
import Lox.Proofs.Sessions.Stages

/-!
# Requests

What can be asked of an interpreter: to read tokens or a text, to run or evaluate a text, to resolve
a tree that was read before, or to do something with the distances it has noted. Every request reads
at most one tree and resolves at most one, and by these alone it changes the number of the next node
and the table of distances.
-/

namespace Lox

/-- What an interpreter is asked to do. -/
inductive Request
  /-- To read tokens as a program. -/
  | tokens (tokens : List Token)
  /-- To read a text as a program. -/
  | parse (source : String)
  /-- To read a text as an expression. -/
  | parseExpression (source : String)
  | run (fuel : Nat) (source : String)
  | runQuietly (fuel : Nat) (source : String)
  | evaluate (fuel : Nat) (source : String)
  /-- To resolve one of the trees read so far. -/
  | resolve (index : Nat)
  /-- To do something with the distances noted so far, such as to run one of those trees. -/
  | perform (running : Steps Machine → Running Unit)

/-- The expression that a stream is, as a program. -/
def Stream.lone (stream : Stream) (nextId : Nat) : Except SyntaxError Program × Nat :=
  ((stream.expression nextId).1.map fun e => [.expression e], (stream.expression nextId).2)

/-- What is read, unless an error is found. -/
def treeRead? {α : Type} : Option (Except SyntaxError α × Nat) → Option α
  | some (.ok x, _) => some x
  | _ => none

namespace Request

/-- The tree that is read with nodes numbered from the given number on, or the error that is found
in its stead; a request that gets to no tokens reads nothing. -/
def reading (nextId : Nat) : Request → Option (Except SyntaxError Program × Nat)
  | tokens ts => readTokens ts nextId
  | parse source | run _ source | runQuietly _ source =>
    (tokenize source.toList).toOption.map (·.program nextId)
  | parseExpression source | evaluate _ source =>
    (tokenize source.toList).toOption.map (·.lone nextId)
  | resolve _ | perform _ => none

/-- The trees that are handed out: what is read, or the statements before an error. -/
def handsOut (nextId : Nat) (r : Request) : List Program :=
  match r.reading nextId with
  | some (.ok p, _) => [p]
  | some (.error e, _) => [e.before]
  | none => []

/-- The tree that is resolved, of those read before or the one that is read; the empty one if there
is none. -/
def resolved (trees : List Program) (nextId : Nat) (r : Request) : Program :=
  match r with
  | resolve index => trees[index]?.getD []
  | run .. | runQuietly .. | evaluate .. => (treeRead? (r.reading nextId)).getD []
  | _ => []

/-- What a request makes of a session. -/
def after (trees : List Program) (s : Session) : Request → Session
  | tokens ts =>
    match Stream.ofList? ts with
    | some stream => (s.after (Acting.read stream.program)).2
    | none => s
  | parse source => (s.after (Acting.parse source)).2
  | parseExpression source => (s.after do Acting.read (← Acting.tokens source).expression).2
  | run fuel source => (s.after (Acting.run fuel source)).2
  | runQuietly fuel source => (s.after (Acting.runQuietly fuel source)).2
  | evaluate fuel source => (s.after (Acting.evaluate fuel source)).2
  | resolve index => (s.after (Acting.install (trees[index]?.getD []).resolution)).2
  | perform running => (s.after (Acting.perform running)).2

end Request

/-! ## What requests do to a session -/

/-- A session got to the number `nextId`, with the distances of the uses in its table. -/
structure Session.Advanced (s : Session) (nextId : Nat) (uses : List Use) (s' : Session) :
    Prop where
  nextId : s'.nextId = nextId
  table : s'.table = s.table.insertUses uses

namespace Acting

variable {α β : Type} {s : Session}

/-- What is run with the distances noted so far adds none to them, and reads nothing. -/
theorem advanced_perform (running : Steps Machine → Running α) (s : Session) :
    s.Advanced s.nextId [] (stateLeft (perform running s)) := by
  rw [perform]
  cases running (Access.distances s.table).steps s.machine <;> exact ⟨rfl, rfl⟩

theorem advanced_install (r : Resolution) (s : Session) :
    s.Advanced s.nextId r.uses (stateLeft (install r s)) := by
  obtain ⟨trace, same⟩ := install_eq r s
  rw [same]
  rcases r.outcome with (refusal | misplaced) | u <;> exact ⟨rfl, rfl⟩

/-- What is done after a resolution leaves the distances that were noted, if it notes none. -/
theorem advanced_install_bind (r : Resolution) {rest : Acting β}
    (keeps : ∀ s : Session, s.Advanced s.nextId [] (stateLeft (rest s))) (s : Session) :
    s.Advanced s.nextId r.uses (stateLeft ((install r >>= fun _ => rest) s)) := by
  have installed := advanced_install r s
  cases done : install r s with
  | error failure s' =>
    rw [done] at installed
    rw [run_bind_of_error done]
    exact installed
  | ok u s' =>
    rw [done] at installed
    rw [run_bind_of_ok done]
    have kept := keeps s'
    exact ⟨kept.nextId.trans installed.nextId, kept.table.trans installed.table⟩

/-- How reading a tree ends in a session, given what is read: the table stays as it is, and the
numbers are used up. -/
inductive Reads (s : Session) :
    Option (Except SyntaxError α × Nat) → EStateM.Result Failure Session α → Prop
  | nothing (failure : Failure) : Reads s none (.error failure s)
  | refused {e : SyntaxError} {n : Nat} {s' : Session} (failure : Failure)
      (advanced : s.Advanced n [] s') : Reads s (some (.error e, n)) (.error failure s')
  | tree {x : α} {n : Nat} {s' : Session} (advanced : s.Advanced n [] s') :
      Reads s (some (.ok x, n)) (.ok x s')

theorem reads_text (reading : Stream → Nat → Except SyntaxError α × Nat) (source : String)
    (s : Session) :
    Reads s ((tokenize source.toList).toOption.map (reading · s.nextId))
      ((do read (reading (← tokens source)) : Acting α) s) := by
  cases scanned : tokenize source.toList with
  | error defects =>
    rw [run_bind_of_error (tokens_of_error scanned)]
    exact .nothing _
  | ok stream =>
    rw [run_bind_of_ok (tokens_of_ok scanned)]
    simp only [Except.toOption, Option.map_some]
    rcases outcome : reading stream s.nextId with ⟨e | x, n⟩
    · rw [read_of_error outcome]
      exact .refused _ ⟨rfl, rfl⟩
    · rw [read_of_ok outcome]
      exact .tree ⟨rfl, rfl⟩

theorem reads_parse (source : String) (s : Session) :
    Reads s ((tokenize source.toList).toOption.map (·.program s.nextId)) (parse source s) := by
  have readAs := parse_readAs s source
  generalize parse source s = result at readAs
  cases readAs with
  | defects scanned =>
    rw [scanned]
    exact .nothing _
  | refused scanned outcome trace =>
    simp only [scanned, Except.toOption, Option.map_some, outcome]
    exact .refused _ ⟨rfl, rfl⟩
  | program scanned outcome trace =>
    simp only [scanned, Except.toOption, Option.map_some, outcome]
    exact .tree ⟨rfl, rfl⟩

/-- What is read leaves its numbers used up. -/
theorem Reads.advanced {outcome : Option (Except SyntaxError α × Nat)}
    {result : EStateM.Result Failure Session α} (reads : Reads s outcome result) :
    s.Advanced ((outcome.map Prod.snd).getD s.nextId) [] (stateLeft result) := by
  cases reads with
  | nothing => exact ⟨rfl, rfl⟩
  | refused _ advanced | tree advanced => exact advanced

/-- A tree is read, and then its distances are noted. -/
theorem Reads.bind {outcome : Option (Except SyntaxError α × Nat)} {reader : Acting α}
    {go : α → Acting β} {uses : α → List Use} (reads : Reads s outcome (reader s))
    (goes : ∀ x (s : Session), s.Advanced s.nextId (uses x) (stateLeft (go x s))) :
    s.Advanced ((outcome.map Prod.snd).getD s.nextId) (((treeRead? outcome).map uses).getD [])
      (stateLeft ((reader >>= go) s)) := by
  generalize ran : reader s = result at reads
  cases reads with
  | nothing | refused =>
    rw [run_bind_of_error ran]
    first | exact ⟨rfl, rfl⟩ | assumption
  | @tree x n s' advanced =>
    rw [run_bind_of_ok ran]
    have gone := goes x s'
    exact ⟨gone.nextId.trans advanced.nextId, by rw [gone.table, advanced.table]; rfl⟩

end Acting

/-- An expression is resolved as its expression statement is. -/
theorem Program.resolution_expression (e : Expr) :
    Program.resolution [.expression e] = e.resolution := by
  simp only [Program.resolution, Expr.resolution, Stmt.resolveAll, Stmt.resolve, bind_pure_unit]

namespace Request

/-- A text that is read as an expression is read as its expression statement. -/
theorem reading_lone (source : Option Stream) (n : Nat) :
    (source.map (·.lone n)).map Prod.snd = (source.map (·.expression n)).map Prod.snd ∧
      Resolution.uses (Program.resolution ((treeRead? (source.map (·.lone n))).getD [])) =
        ((treeRead? (source.map (·.expression n))).map fun e => e.resolution.uses).getD [] := by
  cases source with
  | none => exact ⟨rfl, rfl⟩
  | some stream =>
    refine ⟨rfl, ?_⟩
    simp only [Option.map_some, Stream.lone]
    rcases stream.expression n with ⟨e | e, m⟩
    · rfl
    · exact congrArg Resolution.uses (Program.resolution_expression e)

theorem uses_treeRead (outcome : Option (Except SyntaxError Program × Nat)) :
    ((treeRead? outcome).getD []).resolution.uses =
      ((treeRead? outcome).map fun p => p.resolution.uses).getD [] := by
  cases treeRead? outcome <;> rfl

/-- What is read is a stream that ends, as a program or as a lone expression. -/
theorem exists_stream {r : Request} {n : Nat} {outcome : Except SyntaxError Program × Nat}
    (read : r.reading n = some outcome) : ∃ stream : Stream, stream.stop.kind = .eof ∧
      (stream.program n = outcome ∨ stream.lone n = outcome) := by
  have ofText {source : String} {stream : Stream}
      (scanned : (tokenize source.toList).toOption = some stream) : stream.stop.kind = .eof := by
    cases result : tokenize source.toList with
    | error defects => rw [result] at scanned; cases scanned
    | ok stream' =>
      rw [result] at scanned
      cases scanned
      exact tokenize_stop result
  cases r with
  | tokens ts =>
    obtain ⟨stream, split, isOutcome⟩ := Option.map_eq_some_iff.1 read
    exact ⟨stream, (Stream.ofList?_eq_some split).1, .inl isOutcome⟩
  | parse | run | runQuietly =>
    obtain ⟨stream, scanned, isOutcome⟩ := Option.map_eq_some_iff.1 read
    exact ⟨stream, ofText scanned, .inl isOutcome⟩
  | parseExpression | evaluate =>
    obtain ⟨stream, scanned, isOutcome⟩ := Option.map_eq_some_iff.1 read
    exact ⟨stream, ofText scanned, .inr isOutcome⟩
  | resolve | perform => cases read

/-- The nodes of a tree that is read are numbered from the next number on. -/
theorem counted_reading {r : Request} {n m : Nat} {p : Program}
    (read : r.reading n = some (.ok p, m)) : Counted p.nodes n m := by
  obtain ⟨stream, isStop, isProgram | isLone⟩ := exists_stream read
  · exact stream.counted_program isStop isProgram
  · rcases outcome : stream.expression n with ⟨e | e, k⟩
    · simp [Stream.lone, outcome, Except.map] at isLone
    · simp only [Stream.lone, outcome, Except.map, Prod.mk.injEq, Except.ok.injEq] at isLone
      obtain ⟨rfl, rfl⟩ := isLone
      exact (stream.counted_expression isStop outcome).append (.nil _)

/-- So are the nodes of the statements before an error. -/
theorem counted_before {r : Request} {n m : Nat} {e : SyntaxError}
    (read : r.reading n = some (.error e, m)) : ∃ k, Counted e.before.nodes n k ∧ k ≤ m := by
  obtain ⟨stream, isStop, isProgram | isLone⟩ := exists_stream read
  · exact stream.counted_before isStop isProgram
  · rcases outcome : stream.expression n with ⟨e' | e', k⟩
    · simp only [Stream.lone, outcome, Except.map, Prod.mk.injEq, Except.error.injEq] at isLone
      obtain ⟨rfl, rfl⟩ := isLone
      obtain ⟨none, le⟩ := stream.before_expression outcome
      rw [none]
      exact ⟨n, .nil n, le⟩
    · simp [Stream.lone, outcome, Except.map] at isLone

/-- A request changes the number of the next node by what it reads, and the table by what it
resolves. -/
theorem advanced (trees : List Program) (r : Request) (s : Session) :
    s.Advanced (((r.reading s.nextId).map Prod.snd).getD s.nextId)
      (r.resolved trees s.nextId).resolution.uses (r.after trees s) := by
  cases r with
  | tokens ts =>
    rw [after, reading, readTokens]
    cases Stream.ofList? ts with
    | none => exact ⟨rfl, rfl⟩
    | some stream =>
      simp only [Option.map_some, Option.getD_some, Session.after_eq]
      rcases outcome : stream.program s.nextId with ⟨e | p, n⟩
      · rw [Acting.read_of_error outcome]
        exact ⟨rfl, rfl⟩
      · rw [Acting.read_of_ok outcome]
        exact ⟨rfl, rfl⟩
  | parse source =>
    rw [after, Session.after_eq]
    exact (Acting.reads_parse source s).advanced
  | parseExpression source =>
    rw [after, Session.after_eq, reading, (reading_lone _ _).1]
    exact (Acting.reads_text Stream.expression source s).advanced
  | run fuel source =>
    rw [after, Session.after_eq, resolved, uses_treeRead]
    refine (Acting.reads_parse source s).bind fun p => Acting.advanced_install_bind p.resolution ?_
    intro s
    rw [stateLeft_return]
    exact Acting.advanced_perform _ s
  | runQuietly fuel source =>
    rw [after, Session.after_eq, resolved, uses_treeRead, Acting.runQuietly, ← bind_assoc]
    exact (Acting.reads_text Stream.program source s).bind fun p =>
      Acting.advanced_install_bind p.resolution (Acting.advanced_perform _)
  | evaluate fuel source =>
    rw [after, Session.after_eq, resolved, reading, (reading_lone _ _).1, (reading_lone _ _).2,
      Acting.evaluate, ← bind_assoc]
    exact (Acting.reads_text Stream.expression source s).bind fun e =>
      Acting.advanced_install_bind e.resolution (Acting.advanced_perform _)
  | resolve index =>
    rw [after, Session.after_eq]
    exact Acting.advanced_install _ s
  | perform running =>
    rw [after, Session.after_eq]
    exact Acting.advanced_perform running s

end Request

end Lox
