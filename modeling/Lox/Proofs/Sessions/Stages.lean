import Lox.Proofs.Grammar.Onward
import Lox.Session

/-!
# What the stages of a program text do to a session

Reading a text changes the number of the next node and what is noted for debugging. Resolving a
program adds distances to the table. Running it changes the machine alone.
-/

namespace Lox

/-- A text that is scanned ends in the mark of the end. -/
theorem tokenize_stop {text : List Char} {stream : Stream} (scanned : tokenize text = .ok stream) :
    stream.stop.kind = .eof := by
  unfold tokenize at scanned
  dsimp only at scanned
  split at scanned
  · cases scanned
    rfl
  · cases scanned

/-- A text that is not scanned has a defect. -/
theorem tokenize_ne_nil {text : List Char} {defects : List Defect}
    (scanned : tokenize text = .error defects) : defects ≠ [] := by
  unfold tokenize at scanned
  dsimp only at scanned
  split at scanned
  · cases scanned
  · next some =>
    cases scanned
    exact fun none => some (List.isEmpty_iff.2 none)

/-- A session with other notes for debugging. -/
def Session.traced (s : Session) (trace : Trace) : Session :=
  { s with machine := { s.machine with trace } }

/-- A session in which a program was resolved but not yet run. -/
def Session.resolved (s : Session) (p : Program) (m : Nat) (trace : Trace) : Session :=
  ⟨{ s.machine with trace }, s.table.insertUses p.resolution.uses, m⟩

namespace Acting

/-- Notes that are made one after the other only change what is noted. -/
theorem forM_note {α : Type} (event : α → Event) (xs : List α) (s : Session) :
    ∃ trace, (xs.forM fun x => note (event x)) s = .ok () (s.traced trace) := by
  induction xs generalizing s with
  | nil => exact ⟨s.machine.trace, rfl⟩
  | cons x rest ih =>
    obtain ⟨trace, noted⟩ := ih (s.traced (s.machine.trace.note (event x)))
    exact ⟨trace, noted⟩

theorem read_of_ok {α : Type} {reading : Nat → Except SyntaxError α × Nat} {s : Session} {x : α}
    {n : Nat} (outcome : reading s.nextId = (.ok x, n)) :
    read reading s = .ok x { s with nextId := n } := by
  have got : (get : Acting Session) s = .ok s s := rfl
  rw [read, run_bind_of_ok got, outcome]
  rfl

theorem read_of_error {α : Type} {reading : Nat → Except SyntaxError α × Nat} {s : Session}
    {e : SyntaxError} {n : Nat} (outcome : reading s.nextId = (.error e, n)) :
    read reading s = .error (.grammar e) { s with nextId := n } := by
  have got : (get : Acting Session) s = .ok s s := rfl
  rw [read, run_bind_of_ok got, outcome]
  rfl

section
variable {source : String} {s : Session}

theorem tokens_of_error {defects : List Defect} (scanned : tokenize source.toList = .error defects) :
    tokens source s = .error (.lexical defects) s := by
  rw [tokens, scanned]
  rfl

theorem tokens_of_ok {stream : Stream} (scanned : tokenize source.toList = .ok stream) :
    tokens source s = .ok stream s := by
  rw [tokens, scanned]
  rfl

/-- A text with defects does nothing. -/
theorem parse_of_defects {defects : List Defect} (scanned : tokenize source.toList = .error defects) :
    parse source s = .error (.lexical defects) s := by
  rw [parse, run_bind_of_error (tokens_of_error scanned)]

variable {stream : Stream} (scanned : tokenize source.toList = .ok stream) {n : Nat}
include scanned

/-- A text that is no program uses up numbers. -/
theorem parse_of_error {e : SyntaxError} (outcome : stream.program s.nextId = (.error e, n)) :
    ∃ trace, parse source s = .error (.grammar e) { s.traced trace with nextId := n } := by
  have taken : tokens source s = .ok stream s := tokens_of_ok scanned
  let s₁ := s.traced (s.machine.trace.note (.tokens stream.toList))
  have noted : note (.tokens stream.toList) s = .ok () s₁ := rfl
  have refused : read stream.program s₁ = .error (.grammar e) { s₁ with nextId := n } :=
    read_of_error outcome
  refine ⟨s₁.machine.trace, ?_⟩
  rw [parse, run_bind_of_ok taken, run_bind_of_ok noted, run_bind_of_error refused]
  rfl

/-- A program is read, and uses up numbers. -/
theorem parse_of_program {p : Program} (outcome : stream.program s.nextId = (.ok p, n)) :
    ∃ trace, parse source s = .ok p { s.traced trace with nextId := n } := by
  have taken : tokens source s = .ok stream s := tokens_of_ok scanned
  let s₁ := s.traced (s.machine.trace.note (.tokens stream.toList))
  have noted : note (.tokens stream.toList) s = .ok () s₁ := rfl
  have isProgram : read stream.program s₁ = .ok p { s₁ with nextId := n } := read_of_ok outcome
  obtain ⟨trace, statements⟩ := forM_note Event.statement p { s₁ with nextId := n }
  refine ⟨trace, ?_⟩
  rw [parse, run_bind_of_ok taken, run_bind_of_ok noted, run_bind_of_ok isProgram,
    run_bind_of_ok statements]
  rfl

end

/-- How a session reads a text: it has defects, or it is no program, or it is one. What is noted for
debugging is left open. -/
inductive ReadAs (s : Session) (source : String) : EStateM.Result Failure Session Program → Prop
  | defects {defects : List Defect} (scanned : tokenize source.toList = .error defects) :
      ReadAs s source (.error (.lexical defects) s)
  | refused {stream : Stream} {e : SyntaxError} {n : Nat}
      (scanned : tokenize source.toList = .ok stream)
      (outcome : stream.program s.nextId = (.error e, n)) (trace : Trace) :
      ReadAs s source (.error (.grammar e) { s.traced trace with nextId := n })
  | program {stream : Stream} {p : Program} {n : Nat}
      (scanned : tokenize source.toList = .ok stream)
      (outcome : stream.program s.nextId = (.ok p, n)) (trace : Trace) :
      ReadAs s source (.ok p { s.traced trace with nextId := n })

theorem parse_readAs (s : Session) (source : String) : ReadAs s source (parse source s) := by
  cases scanned : tokenize source.toList with
  | error defects =>
    rw [parse_of_defects scanned]
    exact .defects scanned
  | ok stream =>
    rcases outcome : stream.program s.nextId with ⟨e | p, n⟩
    · obtain ⟨trace, parsed⟩ := parse_of_error scanned outcome
      rw [parsed]
      exact .refused scanned outcome trace
    · obtain ⟨trace, parsed⟩ := parse_of_program scanned outcome
      rw [parsed]
      exact .program scanned outcome trace

/-- Without notes a text is read the same way. -/
theorem read_readAs (s : Session) (source : String) :
    ReadAs s source ((do read (← tokens source).program) s) := by
  cases scanned : tokenize source.toList with
  | error defects =>
    rw [run_bind_of_error (tokens_of_error scanned)]
    exact .defects scanned
  | ok stream =>
    rw [run_bind_of_ok (tokens_of_ok scanned)]
    rcases outcome : stream.program s.nextId with ⟨e | p, n⟩
    · rw [read_of_error outcome]
      exact .refused scanned outcome s.machine.trace
    · rw [read_of_ok outcome]
      exact .program scanned outcome s.machine.trace

/-- What a resolution noted is kept, however it ended. -/
theorem install_eq (r : Resolution) (s : Session) :
    ∃ trace, install r s =
      expectAccepted r.outcome { s.traced trace with table := s.table.insertUses r.uses } := by
  let s₁ := { s with table := s.table.insertUses r.uses }
  obtain ⟨trace, noted⟩ := forM_note (fun u : Use => .resolved u.id u.distance) r.uses s₁
  have stored : (modify fun s => { s with table := s.table.insertUses r.uses } : Acting Unit) s =
    .ok () s₁ := rfl
  refine ⟨trace, ?_⟩
  rw [install, run_bind_of_ok stored, run_bind_of_ok noted]
  rfl

/-- What is run changes the machine alone. -/
theorem perform_ok {α : Type} {running : Steps Machine → Running α} {a : α} {s s' : Session}
    (done : perform running s = .ok a s') :
    running (Access.distances s.table).steps s.machine = .ok a s'.machine ∧ s'.table = s.table := by
  rw [perform] at done
  cases ran : running (Access.distances s.table).steps s.machine with
  | ok b m =>
    rw [ran] at done
    cases done
    exact ⟨rfl, rfl⟩
  | error stop m =>
    rw [ran] at done
    cases done

/-- Only the distances of a program that is accepted are found to be in order. -/
theorem install_ok {r : Resolution} {s s' : Session} (installed : install r s = .ok () s') :
    r.outcome = .ok () ∧
      ∃ trace, s' = { s.traced trace with table := s.table.insertUses r.uses } := by
  obtain ⟨trace, same⟩ := install_eq r s
  rw [same] at installed
  cases outcome : r.outcome with
  | ok u =>
    rw [outcome] at installed
    cases installed
    exact ⟨rfl, trace, rfl⟩
  | error refusal =>
    rw [outcome] at installed
    cases refusal <;> cases installed

end Acting

theorem Session.after_eq {α : Type} (s : Session) (acting : Acting α) :
    (s.after acting).2 = stateLeft (acting s) := by
  unfold Session.after
  cases acting s <;> rfl

theorem Session.of_after_error {α : Type} {s s' : Session} {acting : Acting α} {failure : Failure}
    (failed : s.after acting = (.error failure, s')) : acting s = .error failure s' := by
  unfold Session.after at failed
  cases done : acting s with
  | ok a s'' =>
    rw [done] at failed
    cases failed
  | error e s'' =>
    rw [done] at failed
    cases failed
    rfl

/-! ## One text after the other -/

/-- A session after program texts were run in it, each with its fuel, whatever way those before it
ended. -/
def Session.afterRuns (s : Session) (runs : List (Nat × String)) : Session :=
  runs.foldl (fun s (fuel, source) => (s.after (Acting.run fuel source)).2) s

end Lox
