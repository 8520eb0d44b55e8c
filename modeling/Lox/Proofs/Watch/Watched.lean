import Lox.Proofs.Alike.Same
import Lox.Proofs.Runs.Stores

/-!
# Watched runs

A watched run does what a run does. It also keeps what was entered to make each frame, and every
look-up and change of a variable at a noted distance.
-/

namespace Lox

/-- A look-up or a change of a variable at the distance noted for a node. -/
structure Visit where
  env : Env
  id : Nat
  distance : Nat

/-- A machine, and what a watched run keeps. -/
structure Watched where
  machine : Machine
  /-- What was entered to make each frame. -/
  origins : List Origin
  /-- The visits so far, the latest first. -/
  visits : List Visit

namespace Watched

/-- Does something to the machine alone. -/
def onMachine {α : Type} (run : Running α) : RunningOn Watched α := fun w =>
  match run w.machine with
  | .ok a m => .ok a { w with machine := m }
  | .error e m => .error e { w with machine := m }

/-- Keeps the visit of a variable if a distance is noted for the node. -/
def visit (T : Distances) (env : Env) (id : Nat) : RunningOn Watched Unit :=
  match T[id]? with
  | some distance => modify fun w => { w with visits := ⟨env, id, distance⟩ :: w.visits }
  | none => pure ()

/-- Keeps what is entered. -/
def enter (node : ScopeNode) : RunningOn Watched Unit :=
  modify fun w => { w with origins := w.origins ++ [some node] }

/-- The watched steps of a machine. -/
def steps (T : Distances) : Steps Watched where
  lookUp env id name := do
    visit T env id
    onMachine (Running.lookUp (.distances T) env id name)
  assign env id name v := do
    visit T env id
    onMachine (Running.assign (.distances T) env id name v)
  define env name v := onMachine (Running.define env name v)
  openBlock env statements := do
    enter (.block statements)
    onMachine (Running.newFrame env.chain)
  close env keyword params body name := onMachine (Running.close env keyword params body name)
  bindArguments c arguments := do
    enter c.node
    onMachine (Running.bindArguments c arguments)
  callNative f arguments := onMachine (Running.callNative f arguments)
  note e := onMachine (Running.note e)

end Watched

/-! ## Visits -/

/-- A visit reaches a frame that is not the global one, and that was made by entering the very node
whose scope was counted at the distance from the use. The node is told from all others by the use
inside of it. -/
def Visit.Right (origins : List Origin) (counted : List (Note Origin)) (v : Visit) : Prop :=
  ∃ r node, v.env.frameAt v.distance = .ok r ∧ r ≠ Env.global.frame ∧
    origins[r]? = some (some node) ∧ v.id ∈ node.useIds ∧
    ∃ note ∈ counted, note.use.id = v.id ∧ note.use.distance = v.distance ∧
      note.owner = some node

theorem Visit.Right.mono {origins origins' : List Origin} {counted counted' : List (Note Origin)}
    (further : origins <+: origins') (more : ∀ note ∈ counted, note ∈ counted') {v : Visit}
    (right : v.Right origins counted) : v.Right origins' counted' := by
  obtain ⟨r, node, reached, notGlobal, origin, inside, note, noted, same⟩ := right
  exact ⟨r, node, reached, notGlobal, getElem?_further further origin, inside, note,
    more note noted, same⟩

/-- The distances at sites were counted at them, from scopes of nodes that were entered. -/
def Distances.Counted (T : Distances) (sites : Nat × List Origin → Prop)
    (counted : List (Note Origin)) : Prop :=
  ∀ {id around distance}, sites (id, around) → T[id]? = some distance →
    ∃ node, around[distance]? = some (some node) ∧ id ∈ node.useIds ∧
      ∃ note ∈ counted, note.use.id = id ∧ note.use.distance = distance ∧ note.owner = some node

/-- A watched machine is the given machine, and what it keeps is right. -/
structure Watched.Follows (sites : Nat × List Origin → Prop) (counted : List (Note Origin))
    (marks : List Origin) (m : Machine) (w : Watched) : Prop where
  machine : w.machine = m
  origins : w.origins = marks
  alike : m.Alike (.same sites) .plain marks m
  visits : ∀ v ∈ w.visits, v.Right marks counted


section
variable {sites : Nat × List Origin → Prop} {counted : List (Note Origin)} {marks : List Origin}

/-- What is the same on two machines, and makes no frame, is followed by the watched machine. -/
theorem runs_onMachine {α : Type} {P : List Origin → α → α → Prop} {run : Running α}
    (same : RunsAlike (.same sites) (Machine.Alike (.same sites) .plain) P marks run run)
    (keeps : Keeps Machine.AsMany run) :
    RunsAlike (.same sites) (Watched.Follows sites counted) P marks run (Watched.onMachine run) := by
  rintro m w ⟨rfl, rfl, alike, visits⟩
  have results := same _ _ alike
  have kept := keeps w.machine
  unfold Watched.onMachine
  cases ran : run w.machine with
  | ok a m' =>
    rw [ran] at results kept
    cases results with
    | ok marks' further states values =>
      have same := alike.marks_eq states further kept
      subst same
      exact .ok _ List.prefix_rfl ⟨rfl, rfl, states, visits⟩ values
  | error e m' =>
    rw [ran] at results kept
    cases results with
    | error marks' further states stops =>
      have same := alike.marks_eq states further kept
      subst same
      exact .error _ List.prefix_rfl ⟨rfl, rfl, states, visits⟩ stops

variable {T : Distances} (fits : T.Counted sites counted)
include fits

/-- The visit of a use at one of the sites is right. -/
theorem runs_visit {around : List Origin} {env : Env} {id : Nat}
    (marked : env.Marked marks around) (isSite : sites (id, around)) :
    RunsAlike (.same sites) (Watched.Follows sites counted) (fun _ _ _ => True) marks (pure ())
      (Watched.visit T env id) := by
  rintro m w ⟨rfl, rfl, alike, visits⟩
  unfold Watched.visit
  cases noted : T[id]? with
  | none => exact .ok _ List.prefix_rfl ⟨rfl, rfl, alike, visits⟩ trivial
  | some distance =>
    obtain ⟨node, owner, inside, note⟩ := fits isSite noted
    have reached := marked.frameAt distance
    simp only [owner] at reached
    obtain ⟨r, isFrame, origin⟩ := reached
    refine .ok _ List.prefix_rfl ⟨rfl, rfl, alike, ?_⟩ trivial
    have notGlobal : r ≠ Env.global.frame := by
      rintro rfl
      rw [show Env.global.frame = 0 from rfl, alike.root] at origin
      cases origin
    intro v isVisit
    rcases List.mem_cons.1 isVisit with rfl | earlier
    · exact ⟨r, node, isFrame, notGlobal, origin, inside, note⟩
    · exact visits v earlier

private theorem runs_visited {α : Type} {P : List Origin → α → α → Prop} {run : Running α}
    {around : List Origin} {env : Env} {id : Nat} (marked : env.Marked marks around)
    (isSite : sites (id, around))
    (same : ∀ {marks'}, marks <+: marks' →
      RunsAlike (.same sites) (Machine.Alike (.same sites) .plain) P marks' run run)
    (keeps : Keeps Machine.AsMany run) :
    RunsAlike (.same sites) (Watched.Follows sites counted) P marks run
      (do
        Watched.visit T env id
        Watched.onMachine run) := by
  have both : RunsAlike (.same sites) (Watched.Follows sites counted) P marks
      (pure () >>= fun _ => run) (Watched.visit T env id >>= fun _ => Watched.onMachine run) :=
    (runs_visit fits marked isSite).bind fun _ further _ _ _ => runs_onMachine (same further) keeps
  exact both

omit fits in
/-- A new frame is marked by what is entered. -/
private theorem runs_entered {around : List Origin} {env : Env} (marked : env.Marked marks around)
    (node : ScopeNode) {run : Running Env} {f : Store → Store}
    (makes : ∀ m, run m = .ok (m.store.nextEnv env.chain) { m with store := f m.store })
    (stores : ∀ {s : Store}, s.Alike (.same sites) .plain marks s →
      (s.nextEnv env.chain).Marked (marks ++ [some node]) (some node :: around) →
      (f s).Alike (.same sites) .plain (marks ++ [some node]) (f s)) :
    RunsAlike (.same sites) (Watched.Follows sites counted)
      (fun marks env env' => env' = env ∧ env.Marked marks (some node :: around)) marks run
      (do
        Watched.enter node
        Watched.onMachine run) := by
  rintro m w ⟨rfl, rfl, alike, visits⟩
  have further := List.prefix_append w.origins [some node]
  have inside := marked.next (some node) alike.store.size
  show ResultsAlike _ _ _ _ _ (Watched.onMachine run { w with origins := w.origins ++ [some node] })
  unfold Watched.onMachine
  dsimp only
  rw [makes]
  refine .ok _ further ⟨rfl, rfl, ?_, ?_⟩ ⟨rfl, inside⟩
  · exact alike.withStores further (stores alike.store inside)
  · exact fun v isVisit => (visits v isVisit).mono further fun _ => id

/-- Watched steps agree with the steps of a machine. -/
theorem agreement_watched :
    Agreement (.same sites) (Watched.Follows sites counted) (Access.distances T).steps
      (Watched.steps T) := by
  have finds : (Likeness.same sites).Finds .plain T T := Likeness.same_finds fun _ => rfl
  have same : Agreement (.same sites) (Machine.Alike (.same sites) .plain)
      (Access.distances T).steps (Access.distances T).steps := agreement_same fun _ => rfl
  refine ⟨?_, ?_, ?_, ?_, ?_, ?_, ?_, ?_, same.literal⟩
  · rintro marks around env id id' name name' marked ⟨rfl, rfl, isSite⟩
    have kept := (Running.keeps_lookUp (.distances T) env id' name').asMany
    refine runs_visited fits marked isSite (fun further => ?_) kept
    exact same.lookUp (marked.mono further) ⟨rfl, rfl, isSite⟩
  · rintro marks around env id id' name name' v v' marked ⟨rfl, rfl, isSite⟩ values
    cases values.eq_of_same
    have kept := Running.keeps_assign (.distances T) env id' name' v
    refine runs_visited fits marked isSite (fun further => ?_) kept
    exact same.assign (marked.mono further) ⟨rfl, rfl, isSite⟩ (values.later further)
  · rintro marks around env name name' v v' marked rfl values
    cases values.eq_of_same
    exact runs_onMachine (same.define marked rfl values) (Running.keeps_define _ _ _)
  · rintro marks around env ss ss' mark marked ⟨isNode, rfl⟩
    cases isNode
    exact runs_entered marked (.block ss) (fun _ => rfl) fun alike _ => alike.grow _
  · rintro marks around env keyword keyword' params params' body body' name name' mark marked
      ⟨isNode, rfl⟩ lines title names statements
    cases isNode
    exact runs_onMachine (same.close marked ⟨rfl, rfl⟩ lines title names statements)
      (Running.keeps_close _ _ _ _ _).asMany
  · rintro marks around c c' vs vs' mark marked env ⟨isNode, rfl⟩ names values
    cases Value.Alike.all_eq And.left values
    have sameRun : Running.bindArguments c' vs = Running.bindArguments c vs :=
      Running.bindArguments_eq isNode env vs
    have sameParams : c'.params = c.params := (ScopeNode.function.inj isNode).2.1
    rw [sameParams] at names
    show RunsAlike _ _ _ _ (Running.bindArguments c vs) (do
      Watched.enter c'.node
      Watched.onMachine (Running.bindArguments c' vs))
    rw [isNode, sameRun]
    refine runs_entered marked c.node
      (f := fun s => s.grow.defineAll (s.nextEnv c.env.chain) ((c.params.map (·.lexeme)).zip vs))
      (fun _ => rfl) fun alike inside => ?_
    have later := values.imp fun _ _ value => value.later (List.prefix_append marks [some c.node])
    exact defineAll_alike finds inside names later (alike.grow _)
  · rintro marks vs vs' f values
    cases Value.Alike.all_eq And.left values
    exact runs_onMachine (same.callNative f values) (Running.keeps_callNative f vs).asMany
  · rintro marks e e' events
    have sameEvent : e' = e := events.eq And.left
    subst sameEvent
    exact runs_onMachine (same.note events) (Running.keeps_note _).asMany

end

end Lox
