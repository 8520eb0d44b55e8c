import Lox.Proofs.Runs.Together
import Lox.Proofs.Safety.Outcomes

/-!
# Levels of debugging

No level of debugging changes what a session does. What is noted at a level are those events that are
noted at the highest level and are not above it, in the same order, also when a run fails. Without notes
of tokens and statements the events of the lowest level are missing, and all else is the same.
-/

namespace Lox

theorem Event.level_le (e : Event) : e.level ≤ 4 := by
  cases e <;> simp only [level] <;> decide

/-- An event that is a statement has a printed form. -/
def Event.Printable (e : Event) : Prop := ∀ t, e = .statement t → t.misplaced? = none

theorem Event.printable_of_level {e : Event} (above : 1 < e.level) : e.Printable := by
  rintro t rfl
  exact absurd above (Nat.lt_irrefl 1)

/-- The events that were noted for debugging. -/
def Session.notes (s : Session) : List Event := s.machine.trace.events.toList

/-- Two sessions are the same but for what was noted for debugging. -/
def Session.SameButNotes (s s' : Session) : Prop := ∃ trace, s' = s.traced trace

/-! ## Machines that note some events of others -/

/-- Of the events above the lowest level, those up to the given one pass. -/
def Sieve (passes : Event → Bool) (level : Nat) : Prop :=
  ∀ e : Event, 1 < e.level → passes e = decide (e.level ≤ level)

/-- The second machine notes the events up to a level, and of all events of the first one it has those
that pass; else they are the same. All events of the first one can be printed. -/
structure Machine.Sifted (passes : Event → Bool) (level : Nat) (m m' : Machine) : Prop where
  store : m'.store = m.store
  closures : m'.closures = m.closures
  console : m'.console = m.console
  highest : m.trace.level = 4
  level : m'.trace.level = level
  notes : m'.trace.events.toList = m.trace.events.toList.filter passes
  printable : ∀ e ∈ m.trace.events.toList, e.Printable

namespace Machine.Sifted

variable {passes : Event → Bool} {level : Nat} {m m' : Machine}

private theorem printable_note (sifted : m.Sifted passes level m') {e : Event}
    (printable : e.Printable) : ∀ e' ∈ (m.trace.note e).events.toList, e'.Printable := by
  rw [Trace.events_note, sifted.highest, if_pos e.level_le]
  intro e' member
  rcases List.mem_append.1 member with before | new
  · exact sifted.printable e' before
  · rwa [List.mem_singleton.1 new]

/-- An event is noted in both machines. -/
theorem note (sifted : m.Sifted passes level m') {e : Event} (printable : e.Printable)
    (passing : passes e = decide (e.level ≤ level)) :
    Sifted passes level { m with trace := m.trace.note e } { m' with trace := m'.trace.note e } where
  store := sifted.store
  closures := sifted.closures
  console := sifted.console
  highest := (m.trace.level_note e).trans sifted.highest
  level := (m'.trace.level_note e).trans sifted.level
  notes := by
    rw [Trace.events_note, Trace.events_note, sifted.highest, sifted.level, if_pos e.level_le,
      List.filter_append, sifted.notes, List.filter_singleton, passing]
    by_cases kept : e.level ≤ level <;> simp [kept]
  printable := sifted.printable_note printable

/-- An event that does not pass is noted in the first machine alone. -/
theorem note_left (sifted : m.Sifted passes level m') {e : Event} (printable : e.Printable)
    (stopped : passes e = false) :
    Sifted passes level { m with trace := m.trace.note e } m' where
  store := sifted.store
  closures := sifted.closures
  console := sifted.console
  highest := (m.trace.level_note e).trans sifted.highest
  level := sifted.level
  notes := by
    rw [Trace.events_note, sifted.highest, if_pos e.level_le, List.filter_append, sifted.notes,
      List.filter_singleton, stopped]
    exact (List.append_nil _).symm
  printable := sifted.printable_note printable

end Machine.Sifted

/-! ## The steps of machines -/

section
variable {passes : Event → Bool} {level : Nat} {bad : Stop → Prop} {α : Type}

open Running Machine

private theorem sifted_ofFound (name : Token) (found : Except Missing α) :
    Together (Sifted passes level) bad (ofFound name found) (ofFound name found) := by
  cases found with
  | ok a => exact together_pure a
  | error missing => exact together_throw _

private theorem sifted_lookUp (access : Access) (env : Env) (id : Nat) (name : Token) :
    Together (Sifted passes level) bad (lookUp access env id name) (lookUp access env id name) := by
  refine together_get fun m m' sifted => ?_
  rw [sifted.store]
  exact sifted_ofFound name _

private theorem sifted_ownerOf (access : Access) (env : Env) (id : Nat) (name : Token) :
    Together (Sifted passes level) bad (ownerOf access env id name)
      (ownerOf access env id name) := by
  refine together_get fun m m' sifted => ?_
  rw [sifted.store]
  exact sifted_ofFound name _

private theorem sifted_modifyStore (f : Store → Store) :
    Together (Sifted passes level) bad (modifyStore f) (modifyStore f) :=
  together_modify fun _ _ sifted => { sifted with store := congrArg f sifted.store }

private theorem sifted_modifyConsole (f : Console → Console) :
    Together (Sifted passes level) bad (modifyConsole f) (modifyConsole f) :=
  together_modify fun _ _ sifted => { sifted with console := congrArg f sifted.console }

private theorem sifted_assign (access : Access) (env : Env) (id : Nat) (name : Token) (v : Value) :
    Together (Sifted passes level) bad (assign access env id name v)
      (assign access env id name v) :=
  (sifted_ownerOf access env id name).bind fun _ => sifted_modifyStore _

private theorem sifted_newFrame (outer : List Ref) :
    Together (Sifted passes level) bad (newFrame outer) (newFrame outer) := by
  intro m m' sifted
  rw [newFrame, newFrame, sifted.store]
  exact .inr (.ok _ { sifted with store := rfl })

private theorem sifted_close (env : Env) (keyword : Token) (params : List Token) (body : List Stmt)
    (name : Option Token) : Together (Sifted passes level) bad (close env keyword params body name)
      (close env keyword params body name) := by
  refine together_get fun m m' sifted => ?_
  rw [sifted.closures]
  refine Together.bind (together_modify fun m m' sifted => ?_) fun _ => together_pure _
  exact { sifted with closures := congrArg (· + 1) sifted.closures }

private theorem sifted_bindArguments (c : Closure) (vs : List Value) :
    Together (Sifted passes level) bad (bindArguments c vs) (bindArguments c vs) :=
  (sifted_newFrame _).bind fun env => (sifted_modifyStore _).bind fun _ => together_pure env

private theorem sifted_writeLine (text : String) :
    Together (Sifted passes level) bad (writeLine text) (writeLine text) := by
  refine together_get fun m m' sifted => ?_
  rw [sifted.console]
  split
  · exact sifted_modifyConsole _
  · exact together_throw _

private theorem sifted_takeLine (lines : List (List Char)) :
    Together (Sifted passes level) bad (Running.takeLine lines) (Running.takeLine lines) := by
  cases lines with
  | nil => exact together_pure none
  | cons line rest => exact (sifted_modifyConsole _).bind fun _ => together_pure _

private theorem sifted_readLine : Together (Sifted passes level) bad readLine readLine := by
  refine together_get fun m m' sifted => ?_
  rw [sifted.console]
  dsimp only
  split
  · exact together_throw _
  · exact sifted_takeLine _

private theorem sifted_readClock : Together (Sifted passes level) bad readClock readClock := by
  refine together_get fun m m' sifted => ?_
  rw [sifted.console]
  exact (sifted_modifyConsole _).bind fun _ => together_pure _

private theorem sifted_callNative (f : Native) (vs : List Value) :
    Together (Sifted passes level) bad (callNative f vs) (callNative f vs) := by
  cases f with
  | clock => exact sifted_readClock.bind fun _ => together_pure _
  | print => exact (sifted_writeLine _).bind fun _ => together_pure _
  | input =>
    refine sifted_readLine.bind fun line => ?_
    cases line with
    | none => exact together_pure _
    | some line => exact together_pure _

variable (sieve : Sieve passes level)
include sieve

private theorem sifted_note {e : Event} (above : 1 < e.level) :
    Together (Sifted passes level) bad (Running.note e) (Running.note e) :=
  together_modify fun _ _ sifted => sifted.note (Event.printable_of_level above) (sieve e above)

private theorem sifted_define (env : Env) (name : Token) (v : Value) :
    Together (Sifted passes level) bad (define env name v) (define env name v) :=
  (sifted_modifyStore _).bind fun _ => sifted_note sieve (Nat.lt_succ_self 1)

/-- The steps of a machine go together at all levels. -/
theorem sifted_steps (access : Access) :
    access.steps.Together (Sifted passes level) (fun _ => False) access.steps where
  lookUp := sifted_lookUp access
  assign := sifted_assign access
  define := sifted_define sieve
  openBlock env _ := sifted_newFrame env.chain
  close := sifted_close
  bindArguments := sifted_bindArguments
  callNative := sifted_callNative
  condition _ := sifted_note sieve (by simp [Event.level])
  called _ _ := sifted_note sieve (by simp [Event.level])
  literal _ _ := rfl
  inCall _ _ := False.elim

end

/-! ## Sessions -/

/-- The machine of the second session notes some events of the first one's; else the sessions are the
same. -/
structure Session.Sifted (passes : Event → Bool) (level : Nat) (s s' : Session) : Prop where
  machine : s.machine.Sifted passes level s'.machine
  table : s'.table = s.table
  nextId : s'.nextId = s.nextId

section
variable {passes : Event → Bool} {level : Nat} {bad : Failure → Prop} {α : Type}

namespace Acting

open Session

private theorem sifted_noteBoth {e : Event} (printable : e.Printable)
    (passing : passes e = decide (e.level ≤ level)) :
    Together (Sifted passes level) bad (note e) (note e) :=
  together_modify fun _ _ sifted =>
    { sifted with machine := sifted.machine.note printable passing }

private theorem sifted_noteLeft {e : Event} (printable : e.Printable) (stopped : passes e = false) :
    Together (Sifted passes level) bad (note e) (pure ()) :=
  fun _ _ sifted => .inr <| .ok ()
    { sifted with machine := sifted.machine.note_left printable stopped }

private theorem sifted_tokens (source : String) :
    Together (Sifted passes level) bad (tokens source) (tokens source) := by
  unfold tokens
  cases tokenize source.toList with
  | ok stream => exact together_pure stream
  | error defects => exact together_throw _

private theorem sifted_read (reading : Nat → Except SyntaxError α × Nat) :
    Together (Sifted passes level) bad (read reading) (read reading) := by
  refine together_get fun s s' sifted => ?_
  rw [sifted.nextId]
  obtain ⟨outcome, nextId⟩ := reading s.nextId
  refine Together.bind (together_modify fun _ _ sifted => { sifted with nextId := rfl }) fun _ => ?_
  cases outcome with
  | ok x => exact together_pure x
  | error e => exact together_throw _

private theorem sifted_expectAccepted (outcome : Except Refusal Unit) :
    Together (Sifted passes level) bad (expectAccepted outcome) (expectAccepted outcome) := by
  rcases outcome with (e | kind) | _
  · exact together_throw _
  · exact together_throw _
  · exact together_pure ()

private theorem tokens_ok {source : String} {s s' : Session} {stream : Stream}
    (taken : tokens source s = .ok stream s') : tokenize source.toList = .ok stream := by
  unfold tokens at taken
  cases scanned : tokenize source.toList with
  | ok stream' =>
    rw [scanned] at taken
    cases taken
    rfl
  | error defects =>
    rw [scanned] at taken
    cases taken

private theorem read_ok {reading : Nat → Except SyntaxError α × Nat} {s s' : Session} {x : α}
    (done : read reading s = .ok x s') : reading s.nextId = (.ok x, (reading s.nextId).2) := by
  rcases outcome : reading s.nextId with ⟨e | x', n⟩
  · rw [read_of_error outcome] at done
    cases done
  · rw [read_of_ok outcome] at done
    cases done
    rfl

variable (sieve : Sieve passes level)
include sieve

private theorem sifted_install (r : Resolution) :
    Together (Sifted passes level) bad (install r) (install r) := by
  refine Together.bind (together_modify fun s s' sifted => ?_) fun _ => ?_
  · exact { sifted with table := congrArg (·.insertUses r.uses) sifted.table }
  · refine Together.bind (Together.forM fun u _ => ?_) fun _ => sifted_expectAccepted _
    have above : 1 < (Event.resolved u.id u.distance).level := by simp [Event.level]
    exact sifted_noteBoth (Event.printable_of_level above) (sieve _ above)

private theorem sifted_perform (fuel : Nat) (p : Program) :
    Together (Sifted passes level) bad (perform fun steps => interpret steps fuel p)
      (perform fun steps => interpret steps fuel p) := by
  rintro ⟨m, _, _⟩ ⟨m', table, nextId⟩ ⟨sifted, rfl, rfl⟩
  have ends := (together_interpret (sifted_steps sieve (.distances table)) (.inl rfl) fuel p).ends
    sifted
  refine .inr ?_
  unfold perform
  dsimp only
  generalize interpret _ fuel p m = result at ends
  generalize interpret _ fuel p m' = result' at ends
  cases ends with
  | ok a states => exact .ok a ⟨states, rfl, rfl⟩
  | error e states => exact .error _ ⟨states, rfl, rfl⟩

omit sieve

/-- Reads a program, and does something with its tokens and its statements. -/
def reading (noting : Event → Acting Unit) (source : String) : Acting Program := do
  let stream ← tokens source
  noting (.tokens stream.toList)
  let p ← read stream.program
  p.forM fun s => noting (.statement s)
  return p

/-- Doing nothing with tokens and statements is reading alone. -/
private theorem reading_silent (source : String) :
    reading (fun _ => pure ()) source = (do read (← tokens source).program) := by
  have silent (p : Program) : (p.forM fun _ => pure ()) = (pure () : Acting Unit) := by
    induction p with
    | nil => rfl
    | cons s rest ih => exact ih
  simp only [reading, silent, bind_pure, pure_bind]

/-- A program is read in the same way whatever is done with its tokens and statements, if that goes
together with noting them. -/
private theorem sifted_reading {noting : Event → Acting Unit}
    (each : ∀ e : Event, e.Printable → e.level = 1 →
      Together (Sifted passes level) bad (note e) (noting e)) (source : String) :
    Together (Sifted passes level) bad (parse source) (reading noting source) := by
  refine (sifted_tokens source).bind_of fun stream _ _ taken => ?_
  refine (each _ (fun _ same => by cases same) rfl).bind fun _ => ?_
  refine (sifted_read stream.program).bind_of fun p _ _ isProgram => ?_
  have placed := Stream.wellPlaced_program (tokenize_stop (tokens_ok taken)) (read_ok isProgram)
  refine (Together.forM fun t member => each _ ?_ rfl).bind fun _ => together_pure p
  rintro _ ⟨⟩
  exact Stmt.misplaced?_eq_none t (placed.mem t member)

theorem sifted_run (all : ∀ e : Event, passes e = decide (e.level ≤ level)) (fuel : Nat)
    (source : String) :
    Together (Sifted passes level) bad (run fuel source) (run fuel source) := by
  have parsed : Together (Sifted passes level) bad (parse source) (parse source) :=
    sifted_reading (fun e printable _ => sifted_noteBoth printable (all e)) source
  exact parsed.bind fun p => (sifted_install (fun e _ => all e) _).bind fun _ =>
    (sifted_perform (fun e _ => all e) fuel p).bind fun _ => together_pure _

/-- A run without notes of tokens and statements goes together with one, if these do not pass. -/
theorem sifted_runQuietly (sieve : Sieve passes level)
    (lowest : ∀ e : Event, e.level = 1 → passes e = false) (fuel : Nat) (source : String) :
    Together (Sifted passes level) bad (do let _ ← run fuel source) (runQuietly fuel source) := by
  have parsed : Together (Sifted passes level) bad (parse source)
      (do read (← tokens source).program) := by
    rw [← reading_silent]
    exact sifted_reading (fun e printable isLowest =>
      sifted_noteLeft printable (lowest e isLowest)) source
  have running := parsed.bind fun p => (sifted_install sieve p.resolution).bind fun _ =>
    sifted_perform sieve fuel p
  simp only [run, runQuietly, bind_assoc, pure_bind, bind_pure_unit] at running ⊢
  exact running

end Acting

/-! ## Levels -/

theorem Together.after {R : Session → Session → Prop} {acting acting' : Acting α}
    (together : Together R (fun _ => False) acting acting') {s s' : Session} (states : R s s') :
    (s'.after acting').1 = (s.after acting).1 ∧ R (s.after acting).2 (s'.after acting').2 := by
  have ends := together.ends states
  unfold Session.after
  generalize acting s = result at ends
  generalize acting' s' = result' at ends
  cases ends with
  | ok a states => exact ⟨rfl, states⟩
  | error e states => exact ⟨rfl, states⟩

namespace Session

variable {s s' t : Session}

/-- Doing something and dropping its result. -/
theorem after_discard (s : Session) (acting : Acting α) :
    s.after (do let _ ← acting) =
      ((s.after acting).1.map fun _ => (), (s.after acting).2) := by
  unfold after
  cases done : acting s with
  | ok a s' =>
    rw [run_bind_of_ok done]
    rfl
  | error e s' =>
    rw [run_bind_of_error done]
    rfl

theorem Sifted.sameButNotes (sifted : s.Sifted passes level s') : s.SameButNotes s' := by
  refine ⟨s'.machine.trace, ?_⟩
  obtain ⟨⟨store, closures, console, trace⟩, table, nextId⟩ := s
  obtain ⟨⟨rfl, rfl, rfl, _, _, _, _⟩, rfl, rfl⟩ := sifted
  rfl

theorem SameButNotes.trans_symm (same : s.SameButNotes s') (same' : s.SameButNotes t) :
    s'.SameButNotes t := by
  obtain ⟨trace, rfl⟩ := same
  obtain ⟨trace', rfl⟩ := same'
  exact ⟨trace', rfl⟩

theorem sifted_start (console : Console) (level : Nat) :
    (start console 4).Sifted passes level (start console level) :=
  ⟨⟨rfl, rfl, rfl, rfl, rfl, rfl, fun _ member => absurd member List.not_mem_nil⟩, rfl, rfl⟩

theorem Sifted.afterRuns (all : ∀ e : Event, passes e = decide (e.level ≤ level))
    (sifted : s.Sifted passes level s') (runs : List (Nat × String)) :
    (s.afterRuns runs).Sifted passes level (s'.afterRuns runs) := by
  induction runs generalizing s s' with
  | nil => exact sifted
  | cons first rest ih => exact ih ((Acting.sifted_run all first.1 first.2).after sifted).2

end Session

end

/-- Whatever texts a session has run, with any console, a text that it runs with any level of debugging
ends as without debugging and leaves the same session, and what was noted in the session are the events
of the highest level that are not above the given one. Without notes of tokens and statements the same
holds of a first text, and the events of the lowest level are missing. All statements that are noted can
be printed. -/
theorem Session.levels_of_debugging (console : Console) (level : Nat) (runs : List (Nat × String))
    (fuel : Nat) (source : String) :
    let ran (level : Nat) := ((start console level).afterRuns runs).after (Acting.run fuel source)
    let first (level : Nat) := (start console level).after (Acting.run fuel source)
    let quiet (level : Nat) := (start console level).after (Acting.runQuietly fuel source)
    ((ran level).1 = (ran 0).1 ∧ (ran 0).2.SameButNotes (ran level).2 ∧
      (ran level).2.notes = (ran 4).2.notes.filter (·.level ≤ level)) ∧
    ((quiet level).1 = (first 0).1.map (fun _ => ()) ∧ (first 0).2.SameButNotes (quiet level).2 ∧
      (quiet level).2.notes =
        (first 4).2.notes.filter fun e => 1 < e.level ∧ e.level ≤ level) ∧
    ∀ t, .statement t ∈ (ran 4).2.notes → t.misplaced? = none := by
  intro ran first quiet
  have running (runs : List (Nat × String)) (level : Nat) :=
    (Acting.sifted_run (fun _ => rfl) fuel source).after
      (Sifted.afterRuns (fun _ => rfl) (sifted_start console level) runs)
  have sieve : Sieve (fun e => decide (1 < e.level ∧ e.level ≤ level)) level :=
    fun e above => by simp [above]
  have quietly := (Acting.sifted_runQuietly sieve (fun e lowest => by simp [lowest]) fuel
    source).after (sifted_start console level)
  rw [after_discard] at quietly
  obtain ⟨atLevel, sifted⟩ := running runs level
  obtain ⟨atNone, siftedNone⟩ := running runs 0
  obtain ⟨firstAtNone, firstSifted⟩ := running [] 0
  obtain ⟨quietAtLevel, quietSifted⟩ := quietly
  refine ⟨⟨?_, ?_, sifted.machine.notes⟩, ⟨?_, ?_, quietSifted.machine.notes⟩, fun t noted => ?_⟩
  · exact atLevel.trans atNone.symm
  · exact siftedNone.sameButNotes.trans_symm sifted.sameButNotes
  · exact quietAtLevel.trans (congrArg (Except.map fun _ => ()) firstAtNone.symm)
  · exact firstSifted.sameButNotes.trans_symm quietSifted.sameButNotes
  · exact sifted.machine.printable _ noted t rfl

end Lox
