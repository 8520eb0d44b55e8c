import Lox.Proofs.Grammar.Congruent
import Lox.Proofs.Grammar.Depth
import Lox.Proofs.Grammar.Exact
import Lox.Proofs.Grammar.Later
import Lox.Proofs.Grammar.Onward
import Lox.Proofs.Runs.Unless

/-!
# Programs read one after the other

Of the tokens after a statement only a first `else` has to do with how it is read. So the statements
before some tokens do not matter to how these are read: what comes of them is the same program
behind the statements, or the same error, which keeps the statements as well. An error is thus found
behind tokens that are a program on their own.
-/

namespace Lox

/-! ## Depth -/

namespace Reading

/-- Readers of a greater depth read the same, unless the depth was too small. -/
theorem deeper : Congruence fun _ reading reading' =>
    SameUnless (fun e => e.cause = SyntaxError.Cause.tooDeep) reading reading' where
  value a := .refl (pure a)
  bind := SameUnless.bind
  cursor := .refl get
  advance := .refl Reading.advance
  freshId := .refl Reading.freshId
  fail cause found := .refl (Reading.fail cause found)

theorem sameUnless_program (depth more count further : Nat) :
    SameUnless (fun e => e.cause = SyntaxError.Cause.tooDeep) (program depth count)
      (program (depth + more) (count + further)) := by
  have givesUp {α : Type} (y : Reading α) : SameUnless (fun e => e.cause = .tooDeep)
      (peek >>= fail .tooDeep) y := fun _ => .inl ⟨_, _, rfl, rfl⟩
  induction count with
  | zero => exact givesUp _
  | succ count ih =>
    rw [Nat.add_right_comm]
    refine SameUnless.bind (.refl (check .eof)) fun found => ?_
    cases found with
    | true => exact .refl _
    | false =>
      refine SameUnless.bind (deeper.relatedAt (.inr givesUp) depth).statement fun s => ?_
      refine SameUnless.bind ?_ fun _ => .refl _
      have together := sameUnless_iff_together.1 ih
      exact sameUnless_iff_together.2 (together.adaptExcept fun _ => id)

end Reading

/-- A reader of programs of a greater depth than that of a stream reads the stream in the same
way. -/
theorem Stream.read_program {stream : Stream} (isStop : stream.stop.kind = .eof) {depth count : Nat}
    (deep : stream.depth ≤ depth) (long : stream.depth ≤ count) (nextId : Nat) :
    stream.read (Reading.program depth count) nextId = stream.program nextId := by
  obtain ⟨more, rfl⟩ := Nat.exists_eq_add_of_le deep
  obtain ⟨further, rfl⟩ := Nat.exists_eq_add_of_le long
  have same := Reading.sameUnless_program stream.depth more stream.depth further
    ⟨stream.tokens, stream.stop, nextId⟩
  rcases same with ⟨e, c, refused, tooDeep⟩ | same
  · have outcome : stream.program nextId = (.error e, c.nextId) := by
      simp only [Stream.program, Stream.read, EStateM.run, refused]
    exact absurd tooDeep (Stream.program_ne_tooDeep isStop outcome)
  · simp only [Stream.program, Stream.read, EStateM.run, same]

/-! ## Behind other statements -/

/-- An error behind other statements keeps these as well. -/
def SyntaxError.behind (p : Program) (e : SyntaxError) : SyntaxError :=
  { e with before := p ++ e.before }

/-- What comes of reading behind other statements. -/
def Program.behind (p : Program) : Except SyntaxError Program → Except SyntaxError Program
  | .ok q => .ok (p ++ q)
  | .error e => .error (e.behind p)

namespace Grammar

open Reading

variable {stop : Token}

theorem Statements.length_le {ts : List Token} {p : Program} {i j : Nat}
    (derived : Statements ts p i j) : p.length ≤ ts.length := by
  induction p generalizing ts i with
  | nil => exact Nat.zero_le _
  | cons s p ih =>
    cases derived with
    | cons first others =>
      have positive := first.length_pos
      have shorter := ih others
      rw [List.length_append, List.length_cons]
      omega

/-- Behind statements a reader of programs is where it starts without them. -/
theorem Statements.read_before {ts us : List Token} {p : Program} {i j : Nat}
    (derived : Statements ts p i j) (free : (us.headD stop).kind ≠ .elseWord) {depth : Nat}
    (deep : 4 * ts.length ≤ depth) (count : Nat) :
    Reading.program depth (p.length + count) ⟨ts ++ us, stop, i⟩ =
      match Reading.program depth count ⟨us, stop, j⟩ with
      | .ok q c => .ok (p ++ q) c
      | .error e c => .error (e.behind p) c := by
  induction p generalizing ts i with
  | nil =>
    cases derived
    simp only [List.length_nil, Nat.zero_add, List.nil_append]
    generalize Reading.program depth count ⟨us, stop, _⟩ = result
    cases result <;> rfl
  | cons s p ih =>
    cases derived with
    | @cons ts ts' _ _ _ _ middle _ first others =>
      rw [List.length_append] at deep
      rw [List.length_cons, Nat.add_right_comm, List.append_assoc]
      have free' : ((ts' ++ us).headD stop).kind ≠ .elseWord := others.next_ne free
      have read := first.reads stop (fun _ => free') (by omega : _ ≤ depth)
      have more := ih others (by omega)
      obtain ⟨t, ts, rfl, starts⟩ := first.first
      have goesOn : ¬ t.kind = .eof := fun is => starts (by rw [is]; decide)
      rw [Reading.program, run_bind, check_eq]
      rw [List.cons_append] at read ⊢
      simp only [List.headD_cons, goesOn, decide_false, Bool.false_eq_true, if_false]
      simp only [run_bind, read, after, EStateM.adaptExcept, more]
      cases Reading.program depth count ⟨us, stop, j⟩ <;> rfl

/-- A stream that starts with statements is read as its rest is, behind them. -/
theorem Statements.program_append {ts us : List Token} {p : Program} {i j : Nat}
    (derived : Statements ts p i j) (isStop : stop.kind = .eof)
    (free : (us.headD stop).kind ≠ .elseWord) :
    Stream.program ⟨ts ++ us, stop⟩ i =
      (p.behind (Stream.program ⟨us, stop⟩ j).1, (Stream.program ⟨us, stop⟩ j).2) := by
  have fewer := derived.length_le
  have depth : Stream.depth ⟨ts ++ us, stop⟩ = 4 * (ts.length + us.length) + 4 := by
    simp only [Stream.depth, List.length_append]
  obtain ⟨count, enough⟩ : ∃ count, 4 * (ts.length + us.length) + 4 = p.length + count :=
    Nat.exists_eq_add_of_le (by omega)
  have alone :
      (Stream.mk us stop).read (Reading.program (4 * (ts.length + us.length) + 4) count) j =
        Stream.program ⟨us, stop⟩ j := by
    refine Stream.read_program isStop ?_ ?_ j
    · simp only [Stream.depth]
      omega
    · simp only [Stream.depth]
      omega
  have behind := derived.read_before free (by omega : _ ≤ 4 * (ts.length + us.length) + 4) count
  rw [← enough] at behind
  rw [← alone, Stream.program, depth]
  simp only [Stream.read, EStateM.run, behind]
  cases Reading.program (4 * (ts.length + us.length) + 4) count ⟨us, stop, j⟩ <;> rfl

end Grammar

/-! ## Before an error -/

namespace Reading

/-- Outside of the list of statements of a program, errors keep no statements. -/
theorem keeps_no_statements : Congruence fun _ reading _ =>
    ∀ c e c', reading c = .error e c' → e.before = [] where
  value a c e c' h := by cases h
  bind {α β reading _ f _} first second c e c' h := by
    cases ran : reading c with
    | ok a middle =>
      rw [run_bind_of_ok ran] at h
      exact second a middle e c' h
    | error e' middle =>
      rw [run_bind_of_error ran] at h
      cases h
      exact first c e c' ran
  cursor c e c' h := by cases h
  advance c e c' h := by cases h
  freshId c e c' h := by cases h
  fail cause found c e c' h := by cases h; rfl

end Reading

namespace Grammar

open Reading

variable {stop : Token}

/-- An error is found behind the tokens of the statements that it keeps. -/
theorem statements_before_error (isStop : stop.kind = .eof) {depth count : Nat}
    {ahead : List Token} {i : Nat} {e : SyntaxError} {c' : Cursor}
    (refused : Reading.program depth count ⟨ahead, stop, i⟩ = .error e c') :
    ∃ ts rest j, ahead = ts ++ rest ∧ Statements ts e.before i j ∧ j ≤ c'.nextId := by
  induction count generalizing ahead i e c' with
  | zero =>
    cases refused
    exact ⟨[], ahead, i, rfl, .nil, Nat.le_refl i⟩
  | succ count ih =>
    simp only [Reading.program, bind_of_ok (check_eq _ _ _ _)] at refused
    by_cases atEnd : (ahead.headD stop).kind = .eof
    · simp only [atEnd, decide_true, if_true] at refused
      cases refused
    · simp only [atEnd, decide_false, Bool.false_eq_true, if_false] at refused
      cases ran : Reading.statement depth ⟨ahead, stop, i⟩ with
      | error e' middle =>
        rw [run_bind_of_error ran] at refused
        cases refused
        have none := (keeps_no_statements.relatedAt (.inl rfl) depth).statement _ _ _ ran
        have onward := onward_statement depth ⟨ahead, stop, i⟩
        rw [ran] at onward
        rw [none]
        exact ⟨[], ahead, i, rfl, .nil, onward⟩
      | ok s middle =>
        rw [run_bind_of_ok ran] at refused
        obtain ⟨ts, rest, j, rfl, rfl, dangling, derived, _⟩ :=
          (reads_all isStop depth).statements ran
        cases more : Reading.program depth count ⟨rest, stop, j⟩ with
        | ok q c =>
          simp only [run_bind, after, EStateM.adaptExcept, more] at refused
          cases refused
        | error e' c =>
          simp only [run_bind, after, EStateM.adaptExcept, more] at refused
          cases refused
          obtain ⟨us, rest, k, rfl, derived', le⟩ := ih more
          exact ⟨ts ++ us, rest, k, by simp, .cons derived derived', le⟩

end Grammar

/-- A stream that is refused starts with the tokens of the statements that the error keeps; their
numbers are used up. -/
theorem Stream.statements_of_error {stream : Stream} (isStop : stream.stop.kind = .eof) {n m : Nat}
    {e : SyntaxError} (refused : stream.program n = (.error e, m)) :
    ∃ ts rest k, stream.tokens = ts ++ rest ∧ Grammar.Statements ts e.before n k ∧ k ≤ m := by
  unfold Stream.program Stream.read EStateM.run at refused
  split at refused
  · cases refused
  · next ran =>
    cases refused
    exact Grammar.statements_before_error isStop ran

/-! ## Outcomes up to numbers -/

theorem Program.bare_append (p q : Program) : Program.bare (p ++ q) = p.bare ++ q.bare := by
  induction p with
  | nil => rfl
  | cons s p ih => exact congrArg (s.relabel id (fun _ => 0) :: ·) ih

/-- What comes of reading a program, without the numbers of its nodes. -/
def Program.bareOutcome : Except SyntaxError Program → Except SyntaxError Program
  | .ok p => .ok p.bare
  | .error e => .error { e with before := e.before.bare }

theorem Program.eq_ok_of_bareOutcome {outcome : Except SyntaxError Program} {p : Program}
    (same : Program.bareOutcome outcome = .ok p) : ∃ q, outcome = .ok q ∧ q.bare = p := by
  cases outcome with
  | ok q => exact ⟨q, rfl, Except.ok.inj same⟩
  | error e => cases same

theorem Program.eq_error_of_bareOutcome {outcome : Except SyntaxError Program} {e : SyntaxError}
    (same : Program.bareOutcome outcome = .error e) :
    ∃ e', outcome = .error e' ∧ e'.cause = e.cause ∧ e'.found = e.found ∧
      e'.before.bare = e.before := by
  cases outcome with
  | ok q => cases same
  | error e' =>
    cases same
    exact ⟨e', rfl, rfl, rfl, rfl⟩

theorem SyntaxError.message_congr {e e' : SyntaxError} (cause : e'.cause = e.cause)
    (found : e'.found = e.found) : e'.message = e.message := by
  simp only [SyntaxError.message, SyntaxError.text, cause, found]

theorem Program.bareOutcome_behind (p : Program) (outcome : Except SyntaxError Program) :
    Program.bareOutcome (p.behind outcome) = p.bare.behind (Program.bareOutcome outcome) := by
  cases outcome with
  | ok q => exact congrArg Except.ok (Program.bare_append p q)
  | error e =>
    simp only [Program.behind, SyntaxError.behind, Program.bareOutcome, Program.bare_append]

/-- The number of its first node has nothing to do with what comes of reading a stream. -/
theorem Stream.bareOutcome_program (stream : Stream) (n m : Nat) :
    Program.bareOutcome (stream.program n).1 = Program.bareOutcome (stream.program m).1 := by
  have later (d : Nat) : Program.bareOutcome (stream.program d).1 =
      Program.bareOutcome (stream.program 0).1 := by
    rw [← Nat.zero_add d, Stream.program_later stream 0 d]
    rcases stream.program 0 with ⟨p | e, m⟩
    · simp only [Program.bareOutcome, SyntaxError.later, Program.later, Program.bare_relabelAll]
    · simp only [Program.bareOutcome, Program.later, Program.bare_relabelAll]
  rw [later n, later m]

/-! ## Lists of tokens -/

/-- What comes of reading a list of tokens, which must end with a mark of the end. -/
def readTokens (tokens : List Token) (nextId : Nat) :
    Option (Except SyntaxError Program × Nat) :=
  (Stream.ofList? tokens).map (·.program nextId)

theorem readTokens_append {ts : List Token} {stop : Token} (inside : ∀ t ∈ ts, t.kind ≠ .eof)
    (isStop : stop.kind = .eof) (nextId : Nat) :
    readTokens (ts ++ [stop]) nextId = some (Stream.program ⟨ts, stop⟩ nextId) := by
  rw [readTokens, Stream.ofList?_append [] inside isStop rfl isStop, Option.map_some]

theorem Stream.ofList?_eq_some {tokens : List Token} {stream : Stream}
    (split : Stream.ofList? tokens = some stream) :
    stream.stop.kind = .eof ∧ (∀ t ∈ stream.tokens, t.kind ≠ .eof) ∧ stream.tokens <+: tokens := by
  unfold Stream.ofList? at split
  split at split
  · next last stop isLast found =>
    by_cases atEnd : last.kind = .eof
    · rw [if_pos atEnd, Option.some.injEq] at split
      subst split
      refine ⟨by simpa using List.find?_some found, fun t member => ?_, List.takeWhile_prefix _⟩
      simpa using List.all_eq_true.1 List.all_takeWhile t member
    · rw [if_neg atEnd] at split
      cases split
  · cases split

/-- Two streams of which one starts with a program have the same outcomes up to numbers, if the rest
of the one is the other. -/
theorem Grammar.Statements.bareOutcome_append {ts us : List Token} {stop : Token} {p : Program}
    {n m : Nat} (derived : Statements ts p n m) (isStop : stop.kind = .eof)
    (free : (us.headD stop).kind ≠ .elseWord) (k l : Nat) :
    Program.bareOutcome (Stream.program ⟨ts ++ us, stop⟩ l).1 =
      p.bare.behind (Program.bareOutcome (Stream.program ⟨us, stop⟩ k).1) := by
  rw [Stream.bareOutcome_program _ l n, derived.program_append isStop free,
    Program.bareOutcome_behind, Stream.bareOutcome_program _ m k]

/-- Reading goes from statement to statement. If some tokens are a program, and others come after
them which do not start with an `else`, then what is read is that program with what is read of the
others behind it: a program, or the same error with the statements of both. And wherever an error is
found, the statements that it keeps are the program that some first tokens are. -/
theorem readTokens_compositional :
    (∀ (ts us : List Token) (stop : Token) (p : Program) (n m : Nat),
      (∀ t ∈ ts ++ us, t.kind ≠ .eof) → stop.kind = .eof →
      us.head?.map Token.kind ≠ some .elseWord →
      readTokens (ts ++ [stop]) n = some (.ok p, m) →
      -- With numbers that go on from the first tokens to the others.
      (readTokens (ts ++ us ++ [stop]) n =
        (readTokens (us ++ [stop]) m).map fun (outcome, j) => (p.behind outcome, j)) ∧
      -- With any numbers.
      (∀ k l q j, readTokens (us ++ [stop]) k = some (.ok q, j) →
        ∃ both j', readTokens (ts ++ us ++ [stop]) l = some (.ok both, j') ∧
          both.bare = p.bare ++ q.bare) ∧
      ∀ k l e j, readTokens (us ++ [stop]) k = some (.error e, j) →
        ∃ e' j', readTokens (ts ++ us ++ [stop]) l = some (.error e', j') ∧
          e'.message = e.message ∧ e'.found.line = e.found.line ∧
          e'.before.bare = p.bare ++ e.before.bare) ∧
    ∀ (tokens : List Token) (n m : Nat) (e : SyntaxError),
      readTokens tokens n = some (.error e, m) →
      ∃ ts, ts <+: tokens ∧ ∀ stop : Token, stop.kind = .eof →
        ∃ k, readTokens (ts ++ [stop]) n = some (.ok e.before, k) := by
  constructor
  · intro ts us stop p n m inside isStop noElse first
    have insideFirst : ∀ t ∈ ts, t.kind ≠ .eof := fun t member => inside t (by simp [member])
    have insideSecond : ∀ t ∈ us, t.kind ≠ .eof := fun t member => inside t (by simp [member])
    have free : (us.headD stop).kind ≠ .elseWord := by
      cases us with
      | nil => rw [List.headD_nil, isStop]; decide
      | cons t us => simpa using noElse
    rw [readTokens_append insideFirst isStop, Option.some.injEq,
      Grammar.program_eq_ok_iff isStop insideFirst] at first
    simp only [readTokens_append inside isStop, readTokens_append insideSecond isStop,
      Option.some.injEq, Option.map_some]
    have same := first.bareOutcome_append isStop free
    refine ⟨first.program_append isStop free, fun k l q j second => ?_, fun k l e j second => ?_⟩
    · obtain ⟨both, outcome, bare⟩ := Program.eq_ok_of_bareOutcome (by rw [same k l, second]; rfl)
      exact ⟨both, _, Prod.ext outcome rfl, bare⟩
    · obtain ⟨e', outcome, cause, found, bare⟩ :=
        Program.eq_error_of_bareOutcome (by rw [same k l, second]; rfl)
      exact ⟨e', _, Prod.ext outcome rfl, SyntaxError.message_congr cause found,
        congrArg Token.line found, bare⟩
  · intro tokens n m e refused
    obtain ⟨stream, split, ran⟩ := Option.map_eq_some_iff.1 refused
    obtain ⟨isStop, inside, first⟩ := Stream.ofList?_eq_some split
    obtain ⟨ts, rest, k, place, derived⟩ := Stream.statements_of_error isStop ran
    rw [place] at inside first
    have insideFirst : ∀ t ∈ ts, t.kind ≠ .eof := fun t member => inside t (by simp [member])
    refine ⟨ts, (List.prefix_append ts rest).trans first, fun stop isStop => ⟨k, ?_⟩⟩
    rw [readTokens_append insideFirst isStop,
      (Grammar.program_eq_ok_iff isStop insideFirst _ _ _).2 derived.1]

/-- Behind a statement another one is read as it is alone. An expression without an end is refused
there as it is alone, and the statement is the program that the tokens before it are. -/
theorem unfinished_after_statement :
    let name : Token := ⟨.identifier, "x", .nil, 1⟩
    let semicolon : Token := ⟨.semicolon, ";", .nil, 1⟩
    let number : Token := ⟨.number, "2", .nil, 2⟩
    let stop : Token := ⟨.eof, "", .nil, 2⟩
    (∃ both j, readTokens ([name, semicolon] ++ [number, semicolon] ++ [stop]) 1 = some (.ok both, j) ∧
      both.bare = Program.bare [.expression (.reference 1 name), .expression (.literal 1 .nil)]) ∧
    ∃ e e' : SyntaxError, ∃ j j' : Nat,
      readTokens ([number] ++ [stop]) 1 = some (.error e, j) ∧
      readTokens ([name, semicolon] ++ [number] ++ [stop]) 1 = some (.error e', j') ∧
      e'.message = e.message ∧
      ∃ ts, ts <+: [name, semicolon] ++ [number] ++ [stop] ∧
        ∃ k, readTokens (ts ++ [stop]) 1 = some (.ok e'.before, k) := by
  intro name semicolon number stop
  have whole := readTokens_compositional.1 [name, semicolon] [number, semicolon] stop
    [.expression (.reference 1 name)] 1 2 (by decide) rfl (by decide) rfl
  have joint := readTokens_compositional.1 [name, semicolon] [number] stop
    [.expression (.reference 1 name)] 1 2 (by decide) rfl (by decide) rfl
  obtain ⟨e', j', refused, message, _⟩ := joint.2.2 1 1 ⟨.missing .expressionEnd, stop, []⟩ 2 rfl
  obtain ⟨ts, first, read⟩ := readTokens_compositional.2 _ 1 j' e' refused
  refine ⟨whole.2.1 1 1 [.expression (.literal 1 .nil)] 2 rfl, _, e', 2, j', rfl, refused, message,
    ts, first, read stop rfl⟩

end Lox
