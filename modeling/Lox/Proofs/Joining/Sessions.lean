import Lox.Proofs.Joining.Lines
import Lox.Proofs.Watch.Sessions

/-!
# Texts run at once and one after the other

Two accepted texts with a newline between them do to a session what the one does and then the other,
but that the lines of the second text are further down.
-/

namespace Lox

/-! ## What a text does -/

section
variable {α β : Type} {s s' : Session} {acting : Acting α}

theorem Session.after_bind_of_ok {a : α} (ran : s.after acting = (.ok a, s')) (f : α → Acting β) :
    s.after (acting >>= f) = s'.after (f a) := by
  unfold Session.after at ran ⊢
  cases done : acting s with
  | ok a' s'' =>
    rw [done] at ran
    cases ran
    rw [run_bind_of_ok done]
  | error e s'' =>
    rw [done] at ran
    cases ran

theorem Session.after_bind_of_error {e : Failure} (ran : s.after acting = (.error e, s'))
    (f : α → Acting β) : s.after (acting >>= f) = (.error e, s') := by
  unfold Session.after at ran ⊢
  cases done : acting s with
  | ok a' s'' =>
    rw [done] at ran
    cases ran
  | error e s'' =>
    rw [done] at ran
    cases ran
    rw [run_bind_of_error done]

end

/-- What is run one after the other finds the same distances. -/
theorem Acting.perform_bind {α β : Type} (first : Steps Machine → Running α)
    (second : Steps Machine → Running β) :
    perform (fun steps => first steps >>= fun _ => second steps) =
      perform first >>= fun _ => perform second := by
  funext ⟨machine, table, nextId⟩
  cases inner : first (Access.distances table).steps machine with
  | ok a m =>
    have ran : perform first ⟨machine, table, nextId⟩ = .ok a ⟨m, table, nextId⟩ := by
      rw [perform, inner]
    rw [run_bind_of_ok ran, perform, run_bind_of_ok inner]
    rfl
  | error e m =>
    have ran : perform first ⟨machine, table, nextId⟩ =
        .error (.stopped e) ⟨m, table, nextId⟩ := by
      rw [perform, inner]
    rw [run_bind_of_error ran, perform, run_bind_of_error inner]

/-- Programs one after the other are run one after the other, unless the first one fails. -/
theorem Acting.runTrees_append (fuel : Nat) (p q : Program) :
    runTrees fuel (p ++ q) = runTrees fuel p >>= fun _ => runTrees fuel q := by
  have programs (steps : Steps Machine) : interpret steps fuel (p ++ q) =
      interpret steps fuel p >>= fun _ => interpret steps fuel q := List.forM_append
  simp only [runTrees, programs]
  exact perform_bind _ _

/-- An accepted text runs its program with the distances of its uses. -/
theorem Session.after_run {s : Session} {source : String} {p : Program} {m : Nat}
    (accepted : Accepted source.toList p s.nextId m) (fuel : Nat) :
    ∃ trace, s.after (Acting.run fuel source) =
      (((s.resolved p m trace).after (Acting.runTrees fuel p)).1.map fun _ => p.length,
        ((s.resolved p m trace).after (Acting.runTrees fuel p)).2) := by
  obtain ⟨stream, scanned, isProgram, outcome⟩ := accepted
  obtain ⟨trace, parsed⟩ := Acting.parse_of_program scanned isProgram
  obtain ⟨trace', installed⟩ := Acting.install_eq p.resolution { s.traced trace with nextId := m }
  have accepted : Acting.install p.resolution { s.traced trace with nextId := m } =
      .ok () (s.resolved p m trace') := by
    rw [installed, outcome]
    rfl
  refine ⟨trace', ?_⟩
  have runs : Acting.perform (fun steps => interpret steps fuel p) = Acting.runTrees fuel p := rfl
  rw [Session.after, Acting.run, run_bind_of_ok parsed, run_bind_of_ok accepted, runs]
  cases ran : Acting.runTrees fuel p (s.resolved p m trace') with
  | ok u s' =>
    rw [run_bind_of_ok ran, Session.after, ran]
    rfl
  | error e s' =>
    rw [run_bind_of_error ran, Session.after, ran]
    rfl

/-! ## Runs of the same program -/

/-- Two trees are the same, with uses of numbers below a bound. -/
abbrev Likeness.below (bound : Nat) : Likeness Origin := .same (·.1 < bound)

/-- The functions of a session only have uses of numbers that were used up. -/
def Session.Settled (s : Session) : Prop :=
  ∃ marks, Machine.Alike (.below s.nextId) .plain marks s.machine s.machine

/-- All texts that are run leave a session settled. -/
theorem Session.settled_afterRuns (console : Console) (debugLevel : Nat)
    (runs : List (Nat × String)) :
    ((Session.start console debugLevel).afterRuns runs).Settled := by
  let start := WatchedSession.start console debugLevel
  have soundStart : ∃ sites, start.Sound sites start.session.nextId :=
    ⟨_, WatchedSession.sound_start console debugLevel⟩
  obtain ⟨⟨sites, sound⟩, same⟩ := WatchedSession.Sound.afterRuns soundStart runs
  have isSession : start.session.afterRuns runs =
    (Session.start console debugLevel).afterRuns runs := rfl
  rw [← isSession, ← same]
  obtain ⟨_, _, alike, _⟩ := sound.follows
  exact ⟨_, alike.mono (Likeness.same_below fun _ => sound.below)⟩

variable {marks : List Origin}

/-- A program does the same to alike machines if its uses are at the same distances. -/
theorem runTrees_same {s s' : Session} {bound : Nat} {p : Program} (fuel : Nat)
    (agree : ∀ id < bound, s'.table[id]? = s.table[id]?)
    (states : s.machine.Alike (.below bound) .plain marks s'.machine)
    (inside : ∀ id ∈ p.useIds, id < bound) :
    (s'.after (Acting.runTrees fuel p)).1 = (s.after (Acting.runTrees fuel p)).1 ∧
      ∃ marks', Machine.Alike (.below bound) .plain marks'
        (s.after (Acting.runTrees fuel p)).2.machine
        (s'.after (Acting.runTrees fuel p)).2.machine := by
  have sites : ∀ site ∈ Program.sites some [none] p, site.1 < bound := by
    intro site member
    apply inside
    rw [← Program.ids_sites some [none] p]
    exact List.mem_map_of_mem member
  have finds : (Likeness.below bound).Finds .plain s.table s'.table :=
    Likeness.same_finds fun below => agree _ below
  obtain ⟨marks', _, alike, endings⟩ := runTrees_alike fuel finds states (Program.same sites)
  refine ⟨?_, marks', alike⟩
  revert endings
  generalize (s.after (Acting.runTrees fuel p)).1 = ending
  generalize (s'.after (Acting.runTrees fuel p)).1 = ending'
  intro endings
  cases endings with
  | ok => rfl
  | stopped stops => rw [stops.eq_of_same]

/-- A program on other lines does the same to alike machines, up to the lines. -/
theorem runTrees_onLines {s s' : Session} {bound : Nat} {p : Program} (fuel d d' : Nat)
    (table : s'.table = s.table)
    (states : s.machine.Alike (.below bound) .plain marks s'.machine) :
    ∃ marks', Machine.Alike (.moved (d' - d)) .plain marks'
        (s.after (Acting.runTrees fuel (p.onLines (· + d)))).2.machine
        (s'.after (Acting.runTrees fuel (p.onLines (· + d')))).2.machine ∧
      EndingAlike (.moved (d' - d)) (s.after (Acting.runTrees fuel (p.onLines (· + d)))).1
        (s'.after (Acting.runTrees fuel (p.onLines (· + d')))).1 := by
  have finds : (Likeness.moved (d' - d)).Finds .plain s.table s'.table := by
    rw [table]
    exact Likeness.moved_finds _ _
  have moved := states.mono (Likeness.same_below_moved (d' - d))
  obtain ⟨marks', _, alike⟩ := runTrees_alike fuel finds moved (p.alike_onLines d d')
  exact ⟨marks', alike⟩

/-! ## What can be seen of a session -/

/-- The console of a session, and its global variables. -/
def Session.seen (s : Session) : Console × List (String × Value) :=
  (s.machine.console, s.machine.store.globalValues)

/-- The console of a session, and the outlines of its global variables. -/
def Session.outlined (s : Session) : Console × List (String × Outline) :=
  (s.machine.console, s.machine.store.globalOutlines)

theorem Session.seen_eq {s s' : Session} {sites : Nat × List Origin → Prop}
    (states : s.machine.Alike (.same sites) .plain marks s'.machine) : s'.seen = s.seen := by
  have values := states.store.map_globalValues (f := id) states.root Value.Alike.eq_of_same
  simp only [id_eq, List.map_id'] at values
  rw [Session.seen, Session.seen, states.console, values]

theorem Session.outlined_eq {s s' : Session} {L : Likeness Origin}
    (states : s.machine.Alike L .plain marks s'.machine) : s'.outlined = s.outlined := by
  rw [Session.outlined, Session.outlined, states.console,
    states.store.globalOutlines states.root]

theorem Session.outlined_of_seen {s s' : Session} (same : s'.seen = s.seen) :
    s'.outlined = s.outlined := by
  obtain ⟨consoles, values⟩ := Prod.mk.inj same
  have outlines (s : Session) : s.machine.store.globalOutlines =
    s.machine.store.globalValues.map fun entry => (entry.1, entry.2.outline) := rfl
  rw [Session.outlined, Session.outlined, consoles, outlines, outlines, values]

/-! ## Two texts at once -/

/-- A text with newlines before it. -/
def lowered (d : Nat) (text : String) : String := String.ofList (List.replicate d '\n') ++ text

theorem toList_lowered (d : Nat) (text : String) :
    (lowered d text).toList = List.replicate d '\n' ++ text.toList := by
  rw [lowered, String.toList_append, String.toList_ofList]

theorem toList_join (a b : String) : (a ++ "\n" ++ b).toList = a.toList ++ '\n' :: b.toList := by
  rw [String.toList_append, String.toList_append, List.append_assoc]
  rfl

/-- A program on other lines adds the same distances. -/
theorem Program.insertUses_onLines {q : Program} (accepted : q.resolution.outcome = .ok ())
    (lines : Int → Int) (T : Distances) :
    T.insertUses (q.onLines lines).resolution.uses = T.insertUses q.resolution.uses :=
  Distances.insertUses_congr (Program.resolution_relabel lines id accepted).2

/-- Two programs at once add the distances of the one and of the other. -/
theorem Program.insertUses_append {p q : Program} (accepted : p.resolution.outcome = .ok ())
    (accepted' : q.resolution.outcome = .ok ()) (lines : Int → Int) (T : Distances) :
    T.insertUses (Program.resolution (p ++ q.onLines lines)).uses =
      (T.insertUses p.resolution.uses).insertUses q.resolution.uses := by
  have onLines : (q.onLines lines).resolution.outcome = .ok () :=
    (Program.resolution_relabel lines id accepted').1
  rw [Program.resolution_append accepted onLines, Distances.insertUses_append]
  exact Program.insertUses_onLines accepted' lines _

/-- A text does what its program does in a session with its distances and numbers. -/
theorem Session.run_same {t t' : Session} {source : String} {q : Program} {k : Nat}
    (accepted : Accepted source.toList q t.nextId k)
    (states : t.machine.Alike (.below t.nextId) .plain marks t'.machine)
    (table : t'.table = t.table.insertUses q.resolution.uses) (number : t'.nextId = k)
    (fuel : Nat) :
    let later := t.after (Acting.run fuel source)
    let ran := t'.after (Acting.runTrees fuel q)
    later.1 = ran.1.map (fun _ => q.length) ∧ ran.2.seen = later.2.seen ∧
      ran.2.nextId = later.2.nextId ∧ ran.2.table = later.2.table := by
  intro later ran
  obtain ⟨trace, isLater⟩ := Session.after_run accepted fuel
  obtain ⟨apart, further⟩ := accepted.apart
  let t₁ := t.resolved q k trace
  have statesBelow : Machine.Alike (.below k) .plain marks t₁.machine t'.machine :=
    (states.mono (Likeness.same_below fun _ below => Nat.lt_of_lt_of_le below further)).traced
      trace t'.machine.trace
  have agree : ∀ id < k, t'.table[id]? = t₁.table[id]? := fun id _ => by rw [table]; rfl
  obtain ⟨sameEnding, _, statesAfter⟩ := runTrees_same fuel agree statesBelow apart.lt_high
  obtain ⟨tableKept, numberKept⟩ := runTrees_table t₁ fuel q
  obtain ⟨tableKept', numberKept'⟩ := runTrees_table t' fuel q
  have isLater : later = _ := isLater
  rw [isLater]
  refine ⟨by rw [← sameEnding], Session.seen_eq statesAfter, ?_, ?_⟩
  · exact numberKept'.trans (number.trans numberKept.symm)
  · exact tableKept'.trans (table.trans tableKept.symm)

section
variable {s : Session} (settled : s.Settled) {a b : String} {p q : Program} {m k : Nat}
  (first : Accepted a.toList p s.nextId m) (second : Accepted b.toList q m k) (fuel : Nat)
include settled first second

/-- The first text does the same with the distances of both programs. -/
theorem Session.first_same (lines : Int → Int) (trace trace' : Trace) :
    let s₁ := s.resolved p m trace
    let s₂ := s.resolved (p ++ q.onLines lines) k trace'
    (s₂.after (Acting.runTrees fuel p)).1 = (s₁.after (Acting.runTrees fuel p)).1 ∧
      ∃ marks', Machine.Alike (.below m) .plain marks'
        (s₁.after (Acting.runTrees fuel p)).2.machine
        (s₂.after (Acting.runTrees fuel p)).2.machine := by
  intro s₁ s₂
  obtain ⟨marks, states⟩ := settled
  obtain ⟨apart, further⟩ := first.apart
  have statesBelow := states.mono (Likeness.same_below fun _ below =>
    Nat.lt_of_lt_of_le below further)
  refine runTrees_same fuel ?_ (statesBelow.traced trace trace') apart.lt_high
  intro id below
  obtain ⟨_, _, _, accepted⟩ := first
  obtain ⟨apart', _⟩ := second.apart
  obtain ⟨_, _, _, accepted'⟩ := second
  -- The numbers of the second program follow those of the first one.
  have others : ∀ u ∈ q.resolution.uses, u.id ≠ id := by
    rintro u member rfl
    have above := apart'.low_le _ (Program.id_of_use member)
    omega
  show (s.table.insertUses (Program.resolution (p ++ q.onLines lines)).uses)[id]? =
    (s.table.insertUses p.resolution.uses)[id]?
  rw [Program.insertUses_append accepted accepted', Distances.insertUses_of_ne others]

/-- Two texts at once do what the first one does and then the second one, as far down as it is. -/
theorem Session.run_join :
    let joined := s.after (Acting.run fuel (a ++ "\n" ++ b))
    let ran := s.after (Acting.run fuel a)
    (∀ e, ran.1 = .error e → joined.1 = .error e ∧ joined.2.seen = ran.2.seen) ∧
      ∀ count, ran.1 = .ok count →
        let later := ran.2.after (Acting.run fuel (lowered (1 + Text.newlines a.toList) b))
        joined.1 = later.1.map (count + ·) ∧ joined.2.seen = later.2.seen ∧
          joined.2.nextId = later.2.nextId ∧ joined.2.table = later.2.table := by
  intro joined ran
  let lines (line : Int) : Int := line + (1 + Text.newlines a.toList : Nat)
  have both : Accepted (a ++ "\n" ++ b).toList (p ++ q.onLines lines) s.nextId k := by
    rw [toList_join]
    exact first.join second
  obtain ⟨trace, isRan⟩ := Session.after_run first fuel
  obtain ⟨trace', isJoined⟩ := Session.after_run both fuel
  obtain ⟨sameEnding, marks, states⟩ :=
    Session.first_same settled first second fuel lines trace trace'
  let s₁ := s.resolved p m trace
  let s₂ := s.resolved (p ++ q.onLines lines) k trace'
  obtain ⟨tableKept, numberKept⟩ := runTrees_table s₁ fuel p
  obtain ⟨tableKept', numberKept'⟩ := runTrees_table s₂ fuel p
  have isRan : ran = _ := isRan
  have isJoined : joined = _ := isJoined
  rw [Acting.runTrees_append] at isJoined
  rcases ends : s₁.after (Acting.runTrees fuel p) with ⟨ending, t⟩
  rcases ends' : s₂.after (Acting.runTrees fuel p) with ⟨ending', t'⟩
  rw [ends, ends'] at sameEnding states
  rw [ends] at isRan tableKept numberKept
  rw [ends'] at tableKept' numberKept'
  cases sameEnding
  cases ending with
  | error e =>
    rw [Session.after_bind_of_error ends'] at isJoined
    rw [isRan, isJoined]
    refine ⟨fun e' isError => ⟨isError, Session.seen_eq states⟩, fun count isOk => ?_⟩
    cases isOk
  | ok u =>
    rw [Session.after_bind_of_ok ends'] at isJoined
    have number : t.nextId = m := numberKept
    have lower : Accepted (lowered (1 + Text.newlines a.toList) b).toList (q.onLines lines)
        t.nextId k := by
      rw [toList_lowered, number]
      exact second.lower _
    have table : t'.table = t.table.insertUses (q.onLines lines).resolution.uses := by
      obtain ⟨_, _, _, accepted⟩ := first
      obtain ⟨_, _, _, accepted'⟩ := second
      rw [tableKept, tableKept', Program.insertUses_onLines accepted']
      exact Program.insertUses_append accepted accepted' _ _
    rw [← number] at states
    obtain ⟨ending, seen, numbers, tables⟩ :=
      Session.run_same lower states table numberKept' fuel
    rw [isRan, isJoined]
    refine ⟨fun e isError => ?_, fun count isOk => ?_⟩
    · cases isError
    · cases isOk
      refine ⟨?_, seen, numbers, tables⟩
      rw [ending, List.length_append]
      cases (t'.after (Acting.runTrees fuel (q.onLines lines))).1 <;> rfl

end

/-! ## A text further down -/

theorem lowered_zero (text : String) : lowered 0 text = text := by
  simp [lowered]

/-- A text under newlines does the same, but that the lines that come from it are further down. -/
theorem Session.run_lowered {s : Session} (settled : s.Settled) {b : String} {q : Program} {k : Nat}
    (accepted : Accepted b.toList q s.nextId k) (fuel : Nat) :
    ∃ moves, ∀ d,
      let alone := s.after (Acting.run fuel b)
      let later := s.after (Acting.run fuel (lowered d b))
      later.1 = alone.1.mapError (Failure.lower moves d) ∧ later.2.outlined = alone.2.outlined ∧
        later.2.nextId = alone.2.nextId ∧ later.2.table = alone.2.table := by
  have lower (d : Nat) : Accepted (lowered d b).toList (q.onLines (· + d)) s.nextId k := by
    rw [toList_lowered]
    exact accepted.lower d
  choose trace isLater using fun d => Session.after_run (lower d) fuel
  let started (d : Nat) : Session := s.resolved (q.onLines (· + d)) k (trace d)
  let ended (d : Nat) := (started d).after (Acting.runTrees fuel (q.onLines (· + d)))
  obtain ⟨_, _, _, resolved⟩ := accepted
  have table (d : Nat) : (started d).table = s.table.insertUses q.resolution.uses :=
    Program.insertUses_onLines resolved _ _
  obtain ⟨marks, states⟩ := settled
  have related (d d' : Nat) : ∃ marks',
      Machine.Alike (.moved (d' - d)) .plain marks' (ended d).2.machine (ended d').2.machine ∧
      EndingAlike (.moved (d' - d)) (ended d).1 (ended d').1 := by
    have sameTable : (started d').table = (started d).table := (table d').trans (table d).symm
    exact runTrees_onLines fuel d d' sameTable (states.traced (trace d) (trace d'))
  have endings (d d' : Nat) : EndingAlike (.moved (d' - d)) (ended d).1 (ended d').1 := by
    obtain ⟨_, _, alike⟩ := related d d'
    exact alike
  obtain ⟨moves, lowerEnding⟩ := exists_lowerEnding endings
  refine ⟨moves, fun d => ?_⟩
  intro alone later
  have first := isLater 0
  rw [lowered_zero] at first
  have isAlone : alone = _ := first
  have isLater : later = _ := isLater d
  obtain ⟨marks', statesAfter, _⟩ := related 0 d
  have tableKept (d : Nat) : (ended d).2.table = s.table.insertUses q.resolution.uses :=
    (runTrees_table (started d) fuel _).1.trans (table d)
  have numberKept (d : Nat) : (ended d).2.nextId = k := (runTrees_table (started d) fuel _).2
  rw [isAlone, isLater]
  refine ⟨?_, Session.outlined_eq statesAfter, ?_, ?_⟩
  · have ending : (ended d).1 = _ := lowerEnding d
    show (ended d).1.map _ = ((ended 0).1.map _).mapError _
    rw [ending, Program.length_onLines, Program.length_onLines]
    cases (ended 0).1 <;> rfl
  · exact (numberKept d).trans (numberKept 0).symm
  · exact (tableKept d).trans (tableKept 0).symm

/-! ## Sessions -/

theorem Session.afterRuns_concat (s : Session) (runs : List (Nat × String)) (fuel : Nat)
    (source : String) :
    s.afterRuns (runs ++ [(fuel, source)]) =
      ((s.afterRuns runs).after (Acting.run fuel source)).2 := by
  rw [Session.afterRuns, List.foldl_append]
  rfl

/-- In a session of any texts, two accepted texts with a newline between them do what the first does
and then the second. If the first one fails, so do both in the same way, with the same output and
the same global variables. Otherwise the number of statements, the output, the lines that are still
to be read and the global variables are as after the second one, and an error of the second text is
the same, but that the lines that come from it are further down by the lines above it. Those are the
lines that go down with the text, whatever the number of newlines before it. -/
theorem run_joined (console : Console) (debugLevel : Nat) (runs : List (Nat × String)) {a b : String}
    (acceptedFirst : isAccepted a) (acceptedSecond : isAccepted b) (fuel : Nat) :
    let s := (Session.start console debugLevel).afterRuns runs
    let joined := s.after (Acting.run fuel (a ++ "\n" ++ b))
    let first := s.after (Acting.run fuel a)
    let second := first.2.after (Acting.run fuel b)
    let lower (d : Nat) := first.2.after (Acting.run fuel (lowered d b))
    let down := 1 + Text.newlines a.toList
    (∀ e, first.1 = .error e → joined.1 = .error e ∧ joined.2.seen = first.2.seen) ∧
      ∀ count, first.1 = .ok count → ∃ moves : Moves,
        joined.1 = (second.1.mapError (Failure.lower moves down)).map (count + ·) ∧
        joined.2.outlined = second.2.outlined ∧ joined.2.seen = (lower down).2.seen ∧
        joined.2.nextId = second.2.nextId ∧ joined.2.table = second.2.table ∧
        ∀ d, (lower d).1 = second.1.mapError (Failure.lower moves d) ∧
          (lower d).2.outlined = second.2.outlined := by
  intro s joined first second lower down
  obtain ⟨_, _, isFirst⟩ := exists_accepted acceptedFirst
  obtain ⟨_, _, isSecond⟩ := exists_accepted acceptedSecond
  obtain ⟨p, m, isFirst⟩ := isFirst.renumber s.nextId
  obtain ⟨q, k, isNext⟩ := isSecond.renumber m
  obtain ⟨q', k', isLater⟩ := isSecond.renumber first.2.nextId
  have settled : s.Settled := Session.settled_afterRuns console debugLevel runs
  have settledFirst : first.2.Settled := by
    have after := Session.afterRuns_concat (.start console debugLevel) runs fuel a
    have settledAfter := Session.settled_afterRuns console debugLevel (runs ++ [(fuel, a)])
    rwa [after] at settledAfter
  obtain ⟨fails, goesOn⟩ := Session.run_join settled isFirst isNext fuel
  obtain ⟨moves, lowers⟩ := Session.run_lowered settledFirst isLater fuel
  refine ⟨fails, fun count isOk => ⟨moves, ?_⟩⟩
  obtain ⟨ending, seen, number, table⟩ := goesOn count isOk
  obtain ⟨lowerEnding, lowerOutlined, lowerNumber, lowerTable⟩ := lowers down
  refine ⟨?_, ?_, seen, number.trans lowerNumber, table.trans lowerTable, ?_⟩
  · rw [← lowerEnding]
    exact ending
  · rw [← lowerOutlined]
    exact Session.outlined_of_seen seen
  · intro d
    obtain ⟨ending, outlined, _⟩ := lowers d
    exact ⟨ending, outlined⟩

/-- A text that uses a missing variable after a text that declares another one. -/
theorem declaration_joined_with_undefined :
    let s := Session.start (.ofInput "" none false fun _ => 0) 0
    let joined := s.after (Acting.run 5 ("var x;" ++ "\n" ++ "y;"))
    let first := s.after (Acting.run 5 "var x;")
    let second := first.2.after (Acting.run 5 "y;")
    isAccepted "var x;" ∧ isAccepted "y;" ∧ first.1 = .ok 1 ∧ ∃ moves : Moves,
      joined.1 = (second.1.mapError (Failure.lower moves 1)).map (1 + ·) ∧
        joined.2.outlined = second.2.outlined := by
  intro s joined first second
  have acceptedFirst : isAccepted "var x;" := by decide +kernel
  have acceptedSecond : isAccepted "y;" := by decide +kernel
  have isOk : first.1 = .ok 1 := by
    have count : first.1.toOption = some 1 := by decide +kernel
    revert count
    cases first.1 with
    | error e => exact nofun
    | ok n => exact fun count => congrArg Except.ok (Option.some.inj count)
  obtain ⟨moves, ending, outlined, _⟩ :=
    (run_joined (.ofInput "" none false fun _ => 0) 0 [] acceptedFirst acceptedSecond 5).2 1 isOk
  exact ⟨acceptedFirst, acceptedSecond, isOk, moves, ending, outlined⟩

end Lox
