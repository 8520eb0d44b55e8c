import Lox.Proofs.Grammar.Exact
import Lox.Proofs.Scopes.Tables
import Lox.Proofs.Sessions.Stages
import Lox.Proofs.Watch.Watched

/-!
# Watched sessions

A watched session does what a session does, and keeps what the resolutions of its programs counted.
Whatever texts are run in it, each variable that is visited at a noted distance is in a frame of the
very node whose scope was counted.
-/

namespace Lox

/-- A session, and what is kept of it while it is watched. -/
structure WatchedSession where
  session : Session
  /-- What was entered to make each frame. -/
  origins : List Origin
  /-- The visits so far, the latest first. -/
  visits : List Visit
  /-- What resolutions noted of uses, with the nodes of the scopes that they counted. -/
  counted : List (Note Origin)

/-- A watched session before its first program text. -/
def WatchedSession.start (console : Console) (debugLevel : Nat) : WatchedSession :=
  ⟨.start console debugLevel, [none], [], []⟩

/-- A watched session keeps what was done before a failure. -/
abbrev Watching := EStateM Failure WatchedSession

namespace Watching

/-- Does something that runs no program. -/
def onSession {α : Type} (acting : Acting α) : Watching α := fun w =>
  match acting w.session with
  | .ok a s => .ok a { w with session := s }
  | .error e s => .error e { w with session := s }

/-- Keeps what is counted in a program. -/
def count (p : Program) : Watching Unit :=
  modify fun w => { w with counted := w.counted ++ (Program.findings some p).notes }

/-- Runs something with the distances noted so far, and watches it. -/
def perform {α : Type} (running : Steps Watched → RunningOn Watched α) : Watching α :=
    fun ⟨session, origins, visits, counted⟩ =>
  match running (Watched.steps session.table) ⟨session.machine, origins, visits⟩ with
  | .ok x m => .ok x ⟨{ session with machine := m.machine }, m.origins, m.visits, counted⟩
  | .error stop m =>
    .error (.stopped stop) ⟨{ session with machine := m.machine }, m.origins, m.visits, counted⟩

/-- Resolves a program, and keeps what is counted, also if the resolution ends early. -/
def install (p : Program) : Watching Unit := do
  count p
  onSession (Acting.install p.resolution)

/-- Runs statements with the distances noted so far. -/
def runTrees (fuel : Nat) (p : Program) : Watching Unit :=
  perform fun steps => interpret steps fuel p

/-- Runs a program text. -/
def run (fuel : Nat) (source : String) : Watching Unit := do
  let p ← onSession (Acting.parse source)
  install p
  runTrees fuel p

end Watching

/-- A watched session after something was done in it. -/
def WatchedSession.after {α : Type} (w : WatchedSession) (watching : Watching α) :
    WatchedSession :=
  stateLeft (watching w)

/-- A watched session after program texts were run in it, each with its fuel, whatever way those
before it ended. -/
def WatchedSession.afterRuns (w : WatchedSession) (runs : List (Nat × String)) : WatchedSession :=
  runs.foldl (fun w (fuel, source) => w.after (Watching.run fuel source)) w

/-- What was counted is what the table holds, for different uses, and every visit is right. -/
structure WatchedSession.Right (w : WatchedSession) : Prop where
  table : w.session.table = Distances.insertUses ∅ (w.counted.map (·.use))
  different : (w.counted.map (·.use.id)).Nodup
  frames : w.session.machine.store.frames.size = w.origins.length
  visits : ∀ v ∈ w.visits, v.Right w.origins w.counted

/-! ## What holds of a watched session -/

/-- The machine that is watched. -/
def WatchedSession.watched (w : WatchedSession) : Watched :=
  ⟨w.session.machine, w.origins, w.visits⟩

/-- What was counted explains the distances in the table, at sites of uses below a bound, and the
machine is followed. -/
structure WatchedSession.Sound (sites : Nat × List Origin → Prop) (bound : Nat)
    (w : WatchedSession) : Prop where
  table : w.session.table = Distances.insertUses ∅ (w.counted.map (·.use))
  apart : Apart (w.counted.map (·.use.id)) 0 bound
  below : ∀ {id around}, sites (id, around) → id < bound
  counts : w.session.table.Counted sites w.counted
  follows : Watched.Follows sites w.counted w.origins w.session.machine w.watched

namespace WatchedSession

variable {sites sites' : Nat × List Origin → Prop} {bound bound' : Nat} {w : WatchedSession}

theorem Sound.right (sound : w.Sound sites bound) : w.Right :=
  ⟨sound.table, sound.apart.nodup, sound.follows.alike.store.size, sound.follows.visits⟩

/-- What is noted for debugging and which numbers are used up changes nothing. -/
theorem Sound.onward (sound : w.Sound sites bound) (further : bound ≤ bound') (trace : Trace)
    (n : Nat) :
    Sound sites bound' { w with session := { w.session.traced trace with nextId := n } } :=
  ⟨sound.table, sound.apart.mono (Nat.le_refl _) further,
    fun isSite => Nat.lt_of_lt_of_le (sound.below isSite) further, sound.counts,
    ⟨rfl, rfl, ⟨sound.follows.alike.root, sound.follows.alike.store, rfl, rfl⟩,
      sound.follows.visits⟩⟩

/-- What the table holds was counted. -/
theorem Sound.noted (sound : w.Sound sites bound) {id distance : Nat}
    (found : w.session.table[id]? = some distance) : ∃ note ∈ w.counted, note.use.id = id := by
  rw [sound.table] at found
  rcases Distances.of_insertUses found with ⟨u, member, rfl, _⟩ | before
  · obtain ⟨note, noted, rfl⟩ := List.mem_map.1 member
    exact ⟨note, noted, rfl⟩
  · simp at before

/-- Counting a program explains the distances of its uses, which have new numbers. -/
theorem Sound.counted (sound : w.Sound sites bound) {p : Program}
    (apart : Apart p.useIds bound bound') (further : bound ≤ bound') (trace : Trace) :
    Sound (fun site => sites site ∨ site ∈ Program.sites some [none] p) bound'
      { w with
        session := { w.session.traced trace with
          table := w.session.table.insertUses p.resolution.uses }
        counted := w.counted ++ (Program.findings some p).notes } := by
  have uses : p.resolution.uses = (Program.findings some p).notes.map (·.use) := by
    rw [Program.resolution_eq some p]
    rfl
  have idOfSite {id : Nat} {around : List Origin}
      (isSite : (id, around) ∈ Program.sites some [none] p) : id ∈ p.useIds := by
    rw [← Program.ids_sites some [none] p]
    exact List.mem_map_of_mem isSite
  have idOfNote {note : Note Origin} (noted : note ∈ (Program.findings some p).notes) :
      note.use.id ∈ p.useIds := by
    obtain ⟨_, isSite, _⟩ := Program.noted some [none] noted
    exact idOfSite isSite
  refine ⟨?_, ?_, ?_, ?_, ?_⟩
  · show Distances.insertUses w.session.table p.resolution.uses = _
    rw [sound.table, uses, List.map_append, Distances.insertUses_append]
  · rw [List.map_append]
    refine sound.apart.append ⟨Program.nodup_notes some apart.nodup, ?_, ?_⟩ (Nat.zero_le _) further
    · intro id member
      obtain ⟨note, noted, rfl⟩ := List.mem_map.1 member
      exact apart.low_le _ (idOfNote noted)
    · intro id member
      obtain ⟨note, noted, rfl⟩ := List.mem_map.1 member
      exact apart.lt_high _ (idOfNote noted)
  · rintro id around (old | new)
    · exact Nat.lt_of_lt_of_le (sound.below old) further
    · exact apart.lt_high id (idOfSite new)
  · rintro id around distance (old | new) found
    · have others : ∀ u ∈ p.resolution.uses, u.id ≠ id := by
        rintro u member rfl
        rw [uses] at member
        obtain ⟨note, noted, rfl⟩ := List.mem_map.1 member
        exact absurd (apart.low_le _ (idOfNote noted)) (Nat.not_le_of_lt (sound.below old))
      rw [Distances.insertUses_of_ne others] at found
      obtain ⟨node, owner, inside, note, noted, same⟩ := sound.counts old found
      exact ⟨node, owner, inside, note, List.mem_append_left _ noted, same⟩
    · rcases Distances.of_insertUses found with ⟨u, member, rfl, rfl⟩ | before
      · rw [uses] at member
        obtain ⟨note, noted, rfl⟩ := List.mem_map.1 member
        obtain ⟨around', isSite, owner, node, isNode, inside⟩ := Program.noted some [none] noted
        cases Program.around_unique apart.nodup isSite new
        rw [isNode] at owner
        exact ⟨node, owner, inside, note, List.mem_append_right _ noted, rfl, rfl, isNode⟩
      · obtain ⟨note, noted, rfl⟩ := sound.noted before
        have old := sound.apart.lt_high _ (List.mem_map_of_mem noted)
        exact absurd (apart.low_le _ (idOfSite new)) (Nat.not_le_of_lt old)
  · have below : (Likeness.same sites).Below
        (Likeness.same fun site => sites site ∨ site ∈ Program.sites some [none] p) :=
      Likeness.same_below fun _ => .inl
    obtain ⟨machine, origins, ⟨root, store, closures, console⟩, visits⟩ := sound.follows
    refine ⟨rfl, rfl, ⟨root, store.mono below, rfl, rfl⟩, fun v isVisit => ?_⟩
    exact (visits v isVisit).mono List.prefix_rfl fun _ => List.mem_append_left _

/-- Running a program with uses at the sites does to the session what it does unwatched. -/
theorem Sound.runTrees (sound : w.Sound sites bound) (fuel : Nat) {p : Program}
    (inside : ∀ site ∈ Program.sites some [none] p, sites site) :
    (w.after (Watching.runTrees fuel p)).Sound sites bound ∧
      (w.after (Watching.runTrees fuel p)).session =
        (w.session.after (Acting.runTrees fuel p)).2 ∧
      (w.after (Watching.runTrees fuel p)).session.nextId = w.session.nextId := by
  have marked : Env.global.Marked w.origins [none] := .global sound.follows.alike.root
  have results := runs_interpret (agreement_watched sound.counts) fuel marked (Program.same inside)
    _ _ sound.follows
  obtain ⟨⟨machine, table, nextId⟩, origins, visits, counted⟩ := w
  have kept {origins' : List Origin} {m : Machine} {v : Watched}
      (follows : Watched.Follows sites counted origins' m v) :
      Sound sites bound ⟨⟨v.machine, table, nextId⟩, v.origins, v.visits, counted⟩ := by
    obtain ⟨rfl, rfl, alike, right⟩ := follows
    exact ⟨sound.table, sound.apart, sound.below, sound.counts, rfl, rfl, alike, right⟩
  simp only [WatchedSession.after, Session.after, Watching.runTrees, Watching.perform,
    Acting.runTrees, Acting.perform]
  dsimp only [watched] at results
  revert results
  generalize interpret (Access.distances table).steps fuel p machine = result
  generalize interpret (Watched.steps table) fuel p ⟨machine, origins, visits⟩ = result'
  intro results
  cases results with
  | ok marks further follows _ =>
    exact ⟨kept follows, by rw [← follows.machine]; rfl, rfl⟩
  | error marks further follows _ =>
    exact ⟨kept follows, by rw [← follows.machine]; rfl, rfl⟩

/-- Resolving a program keeps a session sound, however the resolution ends. -/
theorem Sound.install (sound : w.Sound sites bound) {p : Program}
    (apart : Apart p.useIds bound bound') (further : bound ≤ bound') :
    ∃ w' : WatchedSession,
      w'.Sound (fun site => sites site ∨ site ∈ Program.sites some [none] p) bound' ∧
      w'.session.nextId = w.session.nextId ∧
      Acting.install p.resolution w.session =
        Acting.expectAccepted p.resolution.outcome w'.session ∧
      Watching.install p w =
        Watching.onSession (Acting.expectAccepted p.resolution.outcome) w' := by
  obtain ⟨trace, installed⟩ := Acting.install_eq p.resolution w.session
  refine ⟨_, sound.counted apart further trace, rfl, installed, ?_⟩
  have watched : Watching.install p w = Watching.onSession (Acting.install p.resolution)
    { w with counted := w.counted ++ (Program.findings some p).notes } := rfl
  rw [watched, Watching.onSession, installed]
  rfl

/-- Resolving a program and running it, unless the resolution is refused, keeps a session sound, and
does to it what it does unwatched. -/
theorem Sound.resolveAndRun (sound : w.Sound sites bound) (fuel : Nat) {p : Program}
    (apart : Apart p.useIds bound bound') (further : bound ≤ bound') {w' : WatchedSession}
    {s' : Session}
    (watched : w' = w.after do
      Watching.install p
      Watching.runTrees fuel p)
    (unwatched : s' = (w.session.after do
      Acting.install p.resolution
      Acting.runTrees fuel p
      return p.length).2) :
    (∃ sites', w'.Sound sites' bound') ∧ w'.session = s' ∧
      w'.session.nextId = w.session.nextId := by
  obtain ⟨v, soundAfter, number, installed, installed'⟩ := sound.install apart further
  rw [Session.after_eq] at unwatched
  rw [WatchedSession.after] at watched
  rcases outcome : p.resolution.outcome with refusal | u
  · have stopped : ∃ failure, Acting.expectAccepted (.error refusal) v.session =
        .error failure v.session := by
      cases refusal with
      | error e => exact ⟨.resolution e, rfl⟩
      | misplaced kind => exact ⟨.misplaced kind, rfl⟩
    obtain ⟨failure, stopped⟩ := stopped
    rw [outcome, stopped] at installed
    rw [outcome, Watching.onSession, stopped] at installed'
    rw [run_bind_of_error installed] at unwatched
    rw [run_bind_of_error installed'] at watched
    subst watched unwatched
    exact ⟨⟨_, soundAfter⟩, rfl, number⟩
  · have goesOn : Acting.expectAccepted (.ok u) v.session = .ok () v.session := rfl
    rw [outcome, goesOn] at installed
    rw [outcome, Watching.onSession, goesOn] at installed'
    rw [run_bind_of_ok installed, stateLeft_return, ← Session.after_eq] at unwatched
    rw [run_bind_of_ok installed'] at watched
    obtain ⟨sound', same, kept⟩ := soundAfter.runTrees fuel (p := p) fun _ => .inr
    subst watched unwatched
    exact ⟨⟨_, sound'⟩, same, kept.trans number⟩

/-- A text that is run keeps a session sound, and does to it what it does unwatched. -/
theorem Sound.run (sound : w.Sound sites w.session.nextId) (fuel : Nat) (source : String) :
    (∃ sites', (w.after (Watching.run fuel source)).Sound sites'
      (w.after (Watching.run fuel source)).session.nextId) ∧
      (w.after (Watching.run fuel source)).session =
        (w.session.after (Acting.run fuel source)).2 := by
  have ends {e : Failure} {s : Session} (failed : Acting.parse source w.session = .error e s) :
      w.after (Watching.run fuel source) = { w with session := s } ∧
        (w.session.after (Acting.run fuel source)).2 = s := by
    have watched : Watching.onSession (Acting.parse source) w =
        .error e { w with session := s } := by
      rw [Watching.onSession, failed]
    constructor
    · rw [WatchedSession.after, Watching.run, run_bind_of_error watched]
      rfl
    · rw [Session.after, Acting.run, run_bind_of_error failed]
  cases scanned : tokenize source.toList with
  | error defects =>
    obtain ⟨same, same'⟩ := ends (Acting.parse_of_defects scanned)
    rw [same, same']
    exact ⟨⟨sites, sound⟩, rfl⟩
  | ok stream =>
    have further := stream.nextId_le_program w.session.nextId
    rcases outcome : stream.program w.session.nextId with ⟨e | p, n⟩
    · rw [outcome] at further
      obtain ⟨trace, parsed⟩ := Acting.parse_of_error scanned outcome
      obtain ⟨same, same'⟩ := ends parsed
      rw [same, same']
      exact ⟨⟨sites, sound.onward further trace n⟩, rfl⟩
    · rw [outcome] at further
      obtain ⟨trace, parsed⟩ := Acting.parse_of_program scanned outcome
      obtain ⟨apart, _⟩ := Grammar.apart_of_program (tokenize_stop scanned) outcome
      let w₁ := { w with session := { w.session.traced trace with nextId := n } }
      have watched : Watching.onSession (Acting.parse source) w = .ok p w₁ := by
        rw [Watching.onSession, parsed]
      have sound₁ : w₁.Sound sites w.session.nextId := sound.onward (Nat.le_refl _) trace n
      obtain ⟨⟨sites', soundAfter⟩, same, bounded⟩ := sound₁.resolveAndRun fuel apart further rfl rfl
      rw [WatchedSession.after, Watching.run, run_bind_of_ok watched, Session.after_eq, Acting.run,
        run_bind_of_ok parsed, ← Session.after_eq]
      refine ⟨⟨sites', ?_⟩, same⟩
      have bound : _ = n := bounded
      rw [← bound] at soundAfter
      exact soundAfter

/-- A session before its first text is sound. -/
theorem sound_start (console : Console) (debugLevel : Nat) :
    Sound (fun _ => False) 1 (start console debugLevel) where
  table := rfl
  apart := .nil _ _
  below := False.elim
  counts := False.elim
  follows := ⟨rfl, rfl, Machine.alike_initial console debugLevel debugLevel,
    fun _ isVisit => absurd isVisit List.not_mem_nil⟩

/-- All texts that are run keep a session sound, and do to it what they do unwatched. -/
theorem Sound.afterRuns {w : WatchedSession} (sound : ∃ sites, w.Sound sites w.session.nextId)
    (runs : List (Nat × String)) :
    (∃ sites, (w.afterRuns runs).Sound sites (w.afterRuns runs).session.nextId) ∧
      (w.afterRuns runs).session = w.session.afterRuns runs := by
  induction runs generalizing w with
  | nil => exact ⟨sound, rfl⟩
  | cons first rest ih =>
    obtain ⟨sites, sound⟩ := sound
    obtain ⟨sound, same⟩ := sound.run first.1 first.2
    obtain ⟨soundAfter, sameAfter⟩ := ih sound
    refine ⟨soundAfter, sameAfter.trans ?_⟩
    rw [same]
    rfl

end WatchedSession

/-! ## Programs that are resolved and run -/

/-- A session after a program was resolved and run, also if the resolution ended early. -/
def Session.afterTrees (s : Session) (fuel : Nat) (p : Program) : Session :=
  ((s.after (Acting.install p.resolution)).2.after (Acting.runTrees fuel p)).2

/-- A watched session after a program was resolved and run, also if the resolution ended early. -/
def WatchedSession.afterTrees (w : WatchedSession) (fuel : Nat) (p : Program) : WatchedSession :=
  (w.after (Watching.install p)).after (Watching.runTrees fuel p)

theorem WatchedSession.Sound.afterTrees {sites : Nat × List Origin → Prop} {bound bound' : Nat}
    {w : WatchedSession} (sound : w.Sound sites bound) (fuel : Nat) {p : Program}
    (apart : Apart p.useIds bound bound') (further : bound ≤ bound') :
    (w.afterTrees fuel p).session = w.session.afterTrees fuel p ∧ (w.afterTrees fuel p).Right := by
  obtain ⟨w', soundAfter, _, installed, installed'⟩ := sound.install apart further
  have watched : w.after (Watching.install p) = w' := by
    rw [WatchedSession.after, installed', Watching.onSession]
    rcases p.resolution.outcome with (e | kind) | u <;> rfl
  have unwatched : (w.session.after (Acting.install p.resolution)).2 = w'.session := by
    rw [Session.after_eq, installed]
    rcases p.resolution.outcome with (e | kind) | u <;> rfl
  obtain ⟨sound', same, _⟩ := soundAfter.runTrees fuel (p := p) fun _ => .inr
  rw [WatchedSession.afterTrees, Session.afterTrees, watched, unwatched]
  exact ⟨same, sound'.right⟩

/-- In a session of any texts, and for any program of other uses that is resolved in it as far as it
can be and then run, every visit of a variable at a noted distance reaches the frame of the very
block or function whose scope was counted at that distance. -/
theorem visits_right (console : Console) (debugLevel : Nat) (runs : List (Nat × String)) :
    let w := (WatchedSession.start console debugLevel).afterRuns runs
    w.session = (Session.start console debugLevel).afterRuns runs ∧ w.Right ∧
      ∀ (fuel : Nat) (p : Program), p.useIds.Nodup → (∀ id ∈ p.useIds, w.session.nextId ≤ id) →
        (w.afterTrees fuel p).session = w.session.afterTrees fuel p ∧
          (w.afterTrees fuel p).Right := by
  intro w
  obtain ⟨⟨sites, sound⟩, same⟩ :=
    WatchedSession.Sound.afterRuns (w := .start console debugLevel)
      ⟨_, WatchedSession.sound_start console debugLevel⟩ runs
  refine ⟨same, sound.right, fun fuel p nodup unused => ?_⟩
  obtain ⟨bound, further, below⟩ := exists_above p.useIds w.session.nextId
  exact sound.afterTrees fuel ⟨nodup, unused, below⟩ further

/-- The variable of a block, read in it. -/
theorem visit_in_block_right :
    let x : Token := ⟨.identifier, "x", .nil, 1⟩
    let p : Program := [.block [.declaration x none, .expression (.reference 1 x)]]
    let w := (WatchedSession.start (.ofInput "" none false fun _ => 0) 0).afterTrees 3 p
    w.visits.map (·.id) = [1] ∧ w.Right := by
  intro x p w
  exact ⟨by decide +kernel, ((visits_right _ 0 []).2.2 3 p (by decide) (by decide)).2⟩

end Lox
