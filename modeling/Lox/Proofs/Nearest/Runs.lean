import Lox.Proofs.Nearest.Frames
import Lox.Proofs.Renaming.Runs
import Lox.Proofs.Runs.Stores
import Lox.Proofs.Runs.Unless
import Lox.Proofs.Safety.Runs

/-!
# Runs with the nearest variables

In a program that declares names before it uses them, a use means the nearest variable of its name. Between
a run with the distances and one with the nearest variables stands a third one, which takes the nearest
variable but first checks that there is one at the distance. It does what the first run does, since all
frames have only declared names; and it does what the last one does, since the check never fails.
-/

namespace Lox

/-! ## Steps that check distances -/

namespace Distances

/-- Ends a run early if the frame at the distance of a use does not have its variable. -/
def check (T : Distances) (env : Env) (id : Nat) (name : Token) : Running Unit := do
  match T[id]? with
  | some distance =>
    let store := (← get).store
    let _ ← Running.ofFound name (store.ownerAt env distance name.lexeme)
    return
  | none => return

/-- The steps that find the nearest variable of a name, after a check of the distance. -/
def checked (T : Distances) : Steps Machine :=
  { Access.nearest.steps with
    lookUp := fun env id name => do
      T.check env id name
      Running.lookUp .nearest env id name
    assign := fun env id name v => do
      T.check env id name
      Running.assign .nearest env id name v }

variable {T : Distances} {env : Env} {id : Nat} {name : Token} {m : Machine}

theorem check_of_none (noDistance : T[id]? = none) : T.check env id name m = .ok () m := by
  simp only [check, noDistance]
  rfl

theorem check_of_some {distance : Nat} (isDistance : T[id]? = some distance) :
    T.check env id name m =
      match m.store.ownerAt env distance name.lexeme with
      | .ok _ => .ok () m
      | .error missing => .error (missing.stop (some name.line)) m := by
  simp only [check, isDistance]
  show (Running.ofFound name (m.store.ownerAt env distance name.lexeme) >>= fun _ => pure ()) m = _
  cases m.store.ownerAt env distance name.lexeme <;> rfl

end Distances

/-- A run ends since a frame at a distance does not have a variable. -/
def Stop.Misses : Stop → Prop
  | .error e => ∃ name, e.cause = .uninitialized name
  | .fault (.noFrame _) => True
  | _ => False

theorem Store.misses_of_ownerAt {s : Store} {env : Env} {distance : Nat} {name : String}
    {missing : Missing} (failed : s.ownerAt env distance name = .error missing) (line : Option Int) :
    (missing.stop line).Misses := by
  unfold Store.ownerAt Env.frameAt at failed
  cases isFrame : env.chain[distance]? with
  | none =>
    rw [isFrame] at failed
    cases failed
    exact trivial
  | some r =>
    rw [isFrame] at failed
    have failed : (if (s.bindings r).contains name then Except.ok r
      else .error (.uninitialized name)) = .error missing := failed
    split at failed
    · cases failed
    · cases failed
      exact ⟨name, rfl⟩

/-- The check changes nothing, or ends the run. -/
theorem sameUnless_check {α : Type} (T : Distances) (env : Env) (id : Nat) (name : Token)
    (run : Running α) : SameUnless Stop.Misses (do T.check env id name; run) run := by
  intro m
  cases isDistance : T[id]? with
  | none =>
    rw [run_bind_of_ok (Distances.check_of_none isDistance)]
    exact .inr rfl
  | some distance =>
    have checked : T.check env id name m = _ := Distances.check_of_some isDistance
    cases found : m.store.ownerAt env distance name.lexeme with
    | ok r =>
      rw [found] at checked
      rw [run_bind_of_ok checked]
      exact .inr rfl
    | error missing =>
      rw [found] at checked
      exact .inl ⟨_, m, run_bind_of_error checked, Store.misses_of_ownerAt found _⟩

theorem sameUnless_checked (T : Distances) :
    T.checked.SameUnless Stop.Misses Access.nearest.steps := by
  constructor
  case lookUp =>
    intro env id name
    exact sameUnless_check T env id name _
  case assign =>
    intro env id name v
    exact sameUnless_check T env id name _
  case inCall =>
    intro step stop misses
    cases stop with
    | error e => exact misses
    | fault f => exact misses
    | outOfFuel => exact misses
  all_goals intros; exact .refl _

/-! ## What is found with and without distances -/

section
variable {T : Distances} {marks around : List Origin} {env : Env} {id : Nat} {name : Token}
  {m : Machine}

/-- What is found without a distance, or where the check is passed, is found after it. -/
theorem check_bind {α : Type} {run : Running α} {found near : Except Missing α}
    (isRun : run m = Running.ofFound name near m) (global : T[id]? = none → near = found)
    (atDistance : ∀ distance, T[id]? = some distance →
      match m.store.ownerAt env distance name.lexeme with
      | .ok _ => near = found
      | .error missing => found = .error missing) :
    (do T.check env id name; run) m = Running.ofFound name found m := by
  cases isDistance : T[id]? with
  | none => rw [run_bind_of_ok (Distances.check_of_none isDistance), isRun, global isDistance]
  | some distance =>
    have checked : T.check env id name m = _ := Distances.check_of_some isDistance
    have same := atDistance distance isDistance
    cases owner : m.store.ownerAt env distance name.lexeme with
    | ok r =>
      rw [owner] at checked same
      rw [run_bind_of_ok checked, isRun, same]
    | error missing =>
      rw [owner] at checked same
      rw [run_bind_of_error checked, same]
      rfl

variable (declared : m.store.Declared marks) (marked : env.Marked marks around)
  (reaches : Reaches T around id name.lexeme)
include declared marked reaches

/-- The nearest variable of a name is the one at the distance, if there is one. -/
theorem lookUp_checked :
    T.checked.lookUp env id name m = Running.lookUp (.distances T) env id name m := by
  obtain ⟨nearer, r, farther, chain, lacking, position⟩ := declared.reached marked reaches
  have isRun : Running.lookUp .nearest env id name m =
      Running.ofFound name (m.store.get env name.lexeme) m := rfl
  show _ = Running.ofFound name (match T[id]? with
    | some distance => m.store.getAt env distance name.lexeme
    | none => m.store.get .global name.lexeme) m
  refine check_bind isRun (fun noDistance => ?_) fun distance isDistance => ?_
  · rw [noDistance] at position ⊢
    obtain ⟨rfl, rfl⟩ := position
    exact Store.get_of_all_lacking chain lacking
  · rw [isDistance] at position ⊢
    subst position
    dsimp only
    rw [Store.getAt_length chain, Store.ownerAt_length chain,
      Std.TreeMap.contains_eq_isSome_getElem?]
    cases found : (m.store.bindings r)[name.lexeme]? with
    | none => rfl
    | some v => exact Store.get_of_lacking chain lacking found

theorem ownerOf_checked :
    (do T.check env id name; Running.ownerOf .nearest env id name) m =
      Running.ownerOf (.distances T) env id name m := by
  obtain ⟨nearer, r, farther, chain, lacking, position⟩ := declared.reached marked reaches
  have isRun : Running.ownerOf .nearest env id name m =
      Running.ofFound name (m.store.owner env name.lexeme) m := rfl
  show _ = Running.ofFound name (match T[id]? with
    | some distance => m.store.ownerAt env distance name.lexeme
    | none => m.store.owner .global name.lexeme) m
  refine check_bind isRun (fun noDistance => ?_) fun distance isDistance => ?_
  · rw [noDistance] at position ⊢
    obtain ⟨rfl, rfl⟩ := position
    exact Store.owner_of_all_lacking chain lacking
  · rw [isDistance] at position ⊢
    subst position
    dsimp only
    rw [Store.ownerAt_length chain]
    cases found : (m.store.bindings r).contains name.lexeme with
    | false => rfl
    | true => exact Store.owner_of_lacking chain lacking found

theorem assign_checked (v : Value) :
    T.checked.assign env id name v m = Running.assign (.distances T) env id name v m := by
  let give (r : Ref) : Running Unit := Running.modifyStore (·.bind r name.lexeme v)
  have same := ownerOf_checked declared marked reaches
  have whole : T.checked.assign env id name v =
      (do T.check env id name; Running.ownerOf .nearest env id name) >>= give :=
    (bind_assoc _ _ _).symm
  rw [whole]
  show _ = (Running.ownerOf (.distances T) env id name >>= give) m
  cases owner : Running.ownerOf (.distances T) env id name m with
  | ok r m' => rw [run_bind_of_ok owner, run_bind_of_ok (same.trans owner)]
  | error e m' => rw [run_bind_of_error owner, run_bind_of_error (same.trans owner)]

end

/-! ## Machines with declared names alone -/

/-- Two machines are the same, and their frames have only declared names. -/
structure Machine.Declared (T : Distances) (marks : List Origin) (m m' : Machine) : Prop where
  same : m' = m
  alike : m.Alike (.declaring T) .plain marks m
  store : m.store.Declared marks

/-- Uses find their variables at their own distances. -/
theorem Likeness.declaring_finds (T : Distances) : (Likeness.declaring T).Finds .plain T T where
  lines use := by rw [use.2.1]; rfl
  distance use := by rw [use.1]
  names use _ _ _ _ := by rw [use.2.1]; exact ⟨rfl, rfl⟩
  globals use _ := by rw [use.2.1]
  declared named := by rw [named.1]; rfl

section
variable {T : Distances} {marks : List Origin}

/-- Only the same function is like a function. -/
private theorem same_of_enters {around : List Origin} {node node' : ScopeNode} {mark : Origin}
    (entered : (Likeness.declaring T).enters around node node' mark) : node' = node := entered.1

/-- A step that makes no frame keeps the names declared if it does so in the frames there are. -/
theorem runs_declared {α : Type} {P : List Origin → α → α → Prop} {run : Running α}
    (same : RunsAlike (.declaring T) (Machine.Alike (.declaring T) .plain) P marks run run)
    (keeps : Keeps Machine.AsMany run)
    (stays : ∀ m, m.store.Declared marks → (stateLeft (run m)).store.Declared marks) :
    RunsAlike (.declaring T) (Machine.Declared T) P marks run run := by
  rintro m m' ⟨rfl, alike, declared⟩
  have results := same _ _ alike
  have kept := keeps m'
  have later := stays m' declared
  cases ran : run m' with
  | ok a n =>
    rw [ran] at results kept later
    cases results with
    | ok marks' further states values =>
      have same := alike.marks_eq states further kept
      subst same
      exact .ok _ List.prefix_rfl ⟨rfl, states, later⟩ values
  | error e n =>
    rw [ran] at results kept later
    cases results with
    | error marks' further states stops =>
      have same := alike.marks_eq states further kept
      subst same
      exact .error _ List.prefix_rfl ⟨rfl, states, later⟩ stops

theorem runs_sameStore {α : Type} {P : List Origin → α → α → Prop} {run : Running α}
    (same : RunsAlike (.declaring T) (Machine.Alike (.declaring T) .plain) P marks run run)
    (keeps : Keeps Machine.SameStore run) :
    RunsAlike (.declaring T) (Machine.Declared T) P marks run run := by
  refine runs_declared same keeps.asMany fun m declared => ?_
  rw [keeps m]
  exact declared

/-- A step that makes a frame for what is entered. -/
private theorem runs_frame {around : List Origin} {env : Env} (marked : env.Marked marks around)
    (node : ScopeNode) {run : Running Env} {f : Store → Store}
    (makes : ∀ m, run m = .ok (m.store.nextEnv env.chain) { m with store := f m.store })
    (stores : ∀ {s : Store}, s.Alike (.declaring T) .plain marks s → s.Declared marks →
      (s.nextEnv env.chain).Marked (marks ++ [some node]) (some node :: around) →
      (f s).Alike (.declaring T) .plain (marks ++ [some node]) (f s) ∧
        (f s).Declared (marks ++ [some node])) :
    RunsAlike (.declaring T) (Machine.Declared T)
      (fun marks env env' => env' = env ∧ env.Marked marks (some node :: around)) marks run run := by
  rintro m m' ⟨rfl, alike, declared⟩
  have further := List.prefix_append marks [some node]
  have inside := marked.next (some node) alike.store.size
  obtain ⟨alikeAfter, declaredAfter⟩ := stores alike.store declared inside
  rw [makes]
  refine .ok _ further ⟨rfl, ?_, declaredAfter⟩ ⟨rfl, inside⟩
  exact alike.withStores further alikeAfter

/-! ### Steps -/

theorem of_ofFound {α : Type} {name : Token} {found : Except Missing α} {a : α} {m m' : Machine}
    (isFound : Running.ofFound name found m = .ok a m') : found = .ok a := by
  cases found with
  | ok a' =>
    cases isFound
    rfl
  | error missing => cases isFound

/-- What is assigned to is a variable that there is already. -/
theorem isSome_of_ownerOf {env : Env} {id : Nat} {name : Token} {m m' : Machine} {r : Ref}
    (found : Running.ownerOf (.distances T) env id name m = .ok r m') :
    ((m.store.bindings r)[name.lexeme]?).isSome := by
  have owner : (match T[id]? with
    | some distance => m.store.ownerAt env distance name.lexeme
    | none => m.store.owner .global name.lexeme) = .ok r := of_ofFound found
  rw [← Std.TreeMap.contains_eq_isSome_getElem?]
  cases isDistance : T[id]? with
  | none =>
    rw [isDistance] at owner
    exact Store.contains_of_owner owner
  | some distance =>
    rw [isDistance] at owner
    exact Store.contains_of_ownerAt owner

private theorem declared_assign {env : Env} {id : Nat} {name : Token} {v : Value} {m : Machine}
    (declared : m.store.Declared marks) :
    (stateLeft (Running.assign (.distances T) env id name v m)).store.Declared marks := by
  show (stateLeft ((Running.ownerOf (.distances T) env id name >>= fun r =>
    Running.modifyStore (·.bind r name.lexeme v)) m)).store.Declared marks
  have kept := Running.keeps_ownerOf (.distances T) env id name m
  cases owner : Running.ownerOf (.distances T) env id name m with
  | error e m' =>
    rw [run_bind_of_error owner]
    rw [owner] at kept
    exact kept ▸ declared
  | ok r m' =>
    rw [run_bind_of_ok owner]
    rw [owner] at kept
    have kept : m'.store = m.store := kept
    show (m'.store.bind r name.lexeme v).Declared marks
    rw [kept]
    exact declared.bind (fun node isMark => declared.names isMark (isSome_of_ownerOf owner)) v

private theorem declared_define {around : List Origin} {env : Env} {name : Token} {v : Value}
    {m : Machine} (marked : env.Marked marks around)
    (named : ∀ node, around.head? = some (some node) → name.lexeme ∈ node.declared)
    (declared : m.store.Declared marks) :
    (stateLeft (Running.define env name v m)).store.Declared marks := by
  show (m.store.bind env.frame name.lexeme v).Declared marks
  refine declared.bind (fun node isMark => named node ?_) v
  cases around with
  | nil => cases marked
  | cons mark outer =>
    rw [marked.frame] at isMark
    exact isMark

private theorem runs_declaredBlock {around : List Origin} {env : Env} (marked : env.Marked marks around)
    (statements : List Stmt) :
    RunsAlike (.declaring T) (Machine.Declared T)
      (fun marks env env' => env' = env ∧ env.Marked marks (some (.block statements) :: around)) marks
      (Running.newFrame env.chain) (Running.newFrame env.chain) := by
  refine runs_frame marked (.block statements) (fun _ => rfl) fun alike declared _ => ?_
  exact ⟨alike.grow _, declared.grow alike.size _⟩

private theorem runs_declaredCall {around : List Origin} {c : Closure} {vs : List Value}
    (marked : c.env.Marked marks around)
    (names : ∀ param ∈ c.params, (Likeness.declaring T).names (some c.node :: around) param param)
    (values : List.Forall₂ (Value.Alike (.declaring T) marks) vs vs) :
    RunsAlike (.declaring T) (Machine.Declared T)
      (fun marks env env' => env' = env ∧ env.Marked marks (some c.node :: around)) marks
      (Running.bindArguments c vs) (Running.bindArguments c vs) := by
  let entries := (c.params.map (·.lexeme)).zip vs
  refine runs_frame marked c.node (f := fun s => s.grow.defineAll (s.nextEnv c.env.chain) entries)
    (fun _ => rfl) fun {s} alike declared inside => ⟨?_, ?_⟩
  · have later := values.imp fun _ _ value => value.later (List.prefix_append marks [some c.node])
    exact defineAll_alike (Likeness.declaring_finds T) inside (List.forall₂_same.2 names) later
      (alike.grow _)
  · refine (declared.grow alike.size c.node).defineAll fun entry member node isMark => ?_
    rw [inside.frame] at isMark
    obtain ⟨param, isParam, isName⟩ := List.mem_map.1 (List.of_mem_zip member).1
    rw [← isName]
    exact (names param isParam).2 node (by rw [List.head?_cons]; exact isMark)

/-- The steps with the distances agree with those that check them. -/
theorem agreement_checked (T : Distances) :
    Agreement (.declaring T) (Machine.Declared T) (Access.distances T).steps T.checked := by
  have finds := Likeness.declaring_finds T
  have same : Agreement (.declaring T) (Machine.Alike (.declaring T) .plain)
      (Access.distances T).steps (Access.distances T).steps := agreement_of_finds finds
  constructor
  case lookUp =>
    rintro marks around env id id' name name' marked ⟨rfl, rfl, reaches⟩ m m' states
    have runs := runs_sameStore (same.lookUp marked ⟨rfl, rfl, reaches⟩)
      (Running.keeps_lookUp (.distances T) env id' name') m m' states
    have isMachine := states.same
    subst isMachine
    rw [lookUp_checked states.store marked reaches]
    exact runs
  case assign =>
    rintro marks around env id id' name name' v v' marked ⟨rfl, rfl, reaches⟩ values m m' states
    cases values.eq same_of_enters
    have runs := runs_declared (same.assign marked ⟨rfl, rfl, reaches⟩ values)
      (Running.keeps_assign (.distances T) env id' name' v) (fun _ => declared_assign) m m' states
    have isMachine := states.same
    subst isMachine
    rw [assign_checked states.store marked reaches]
    exact runs
  case define =>
    rintro marks around env name name' v v' marked ⟨rfl, named⟩ values
    cases values.eq same_of_enters
    exact runs_declared (same.define marked ⟨rfl, named⟩ values) (Running.keeps_define env name' v)
      fun _ => declared_define marked named
  case openBlock =>
    rintro marks around env ss ss' mark marked ⟨isNode, rfl⟩
    cases isNode
    exact runs_declaredBlock marked ss
  case close =>
    rintro marks around env keyword keyword' params params' body body' name name' mark marked
      ⟨isNode, rfl⟩ lines title names statements
    cases isNode
    exact runs_sameStore (same.close marked ⟨rfl, rfl⟩ lines title names statements)
      (Running.keeps_close env keyword params body name)
  case bindArguments =>
    rintro marks around c c' vs vs' mark marked env ⟨isNode, rfl⟩ names values
    cases Value.Alike.all_eq same_of_enters values
    have sameRun : Running.bindArguments c' vs = Running.bindArguments c vs :=
      Running.bindArguments_eq isNode env vs
    have sameParams : c'.params = c.params := (ScopeNode.function.inj isNode).2.1
    rw [sameParams] at names
    show RunsAlike _ _ _ _ (Running.bindArguments c vs) (Running.bindArguments c' vs)
    rw [sameRun]
    exact runs_declaredCall marked (List.forall₂_same.1 names) values
  case callNative =>
    rintro marks vs vs' f values
    cases Value.Alike.all_eq same_of_enters values
    exact runs_sameStore (same.callNative f values) (Running.keeps_callNative f vs)
  case note =>
    rintro marks e e' events
    have sameEvent : e' = e := events.eq same_of_enters
    subst sameEvent
    exact runs_sameStore (same.note events) (Running.keeps_note _)
  case literal => exact same.literal

end

/-! ## Whole runs -/

/-- Where uses reach their variables, checking the distances makes no difference. -/
theorem interpret_checked {T : Distances} {p : Program}
    (alike : Stmt.AllAlike (.declaring T) [none] p p) (fuel : Nat) {m : Machine}
    (isFirst : m.store = .initial) :
    interpret (Access.distances T).steps fuel p m = interpret T.checked fuel p m := by
  have states : m.Declared T [none] m := by
    refine ⟨rfl, ⟨rfl, ?_, rfl, rfl⟩, ?_⟩
    · rw [isFirst]
      exact Store.alike_initial
    · rw [isFirst]
      exact .initial
  have marked : Env.global.Marked [(none : Origin)] [none] := Env.Marked.global rfl
  have ends := runs_interpret (agreement_checked T) fuel marked alike m m states
  revert ends
  generalize interpret (Access.distances T).steps fuel p m = result
  generalize interpret T.checked fuel p m = result'
  intro ends
  cases ends with
  | ok marks' further states values =>
    rw [states.same]
  | error marks' further states stops =>
    rw [states.same, stops.eq (fun same => same) fun same => same]

theorem Stop.Expected.not_misses {T : Distances} {stop : Stop}
    (expected : stop.Expected (.certain T)) : ¬ stop.Misses := by
  intro misses
  cases stop with
  | error e =>
    obtain ⟨name, isMissing⟩ := misses
    have isName : e.cause.kind = .name := by rw [isMissing]; rfl
    obtain ⟨_, _, _, _, isUndefined, _⟩ := expected.isGlobal trivial isName
    rw [isMissing] at isUndefined
    cases isUndefined
  | fault f => exact expected
  | outOfFuel => exact misses

/-- A program that declares names first finds its variables in the nearest frames that have them. -/
theorem interpret_nearest {p : Program} (accepted : p.resolution.outcome = .ok ())
    (nodup : p.useIds.Nodup) (first : p.DeclaredFirst) (fuel : Nat) {m : Machine}
    (isFirst : m.store = .initial) :
    interpret Access.nearest.steps fuel p m =
      interpret (Access.distances p.distances).steps fuel p m := by
  obtain ⟨fits, alike⟩ := Program.reaches accepted nodup first
  have checked := interpret_checked alike fuel isFirst
  have agree := sameUnless_checked p.distances
  have fitsFirst : m.store.Fits (.certain p.distances) := isFirst ▸ Store.fits_initial
  have safe := safe_interpret fuel fitsFirst.root fits m (.refl _) fitsFirst
  rcases sameUnless_interpret agree (.inl rfl) fuel p m with ⟨stop, m', stopped, misses⟩ | same
  · -- A check that fails would end the run with the distances, too.
    have stopped : interpret (Access.distances p.distances).steps fuel p m = .error stop m' :=
      checked.trans stopped
    have stopped' : interpret (Access.distances (Usage.certain p.distances).table).steps fuel p m =
      .error stop m' := stopped
    rw [stopped'] at safe
    exact absurd misses (Stop.Expected.not_misses safe.2.2)
  · exact same.trans checked.symm

/-- What a program does in a session of its own if every use means the nearest variable of its name,
whatever its distance. -/
def Program.freshRunNearest (console : Console) (debugLevel fuel : Nat) (p : Program) :
    Except Failure Unit × Session :=
  (Session.start console debugLevel).after do
    Acting.install p.resolution
    Acting.perform fun _ => interpret Access.nearest.steps fuel p

/-- Looking for the nearest variables does just what going to the frames at the noted distances does:
to the console and to all variables, and it ends in the same way. It does so for every program that is
accepted and declares names before they are used. No two nodes of a program have the same number; of a
program that was read this is `Grammar.apart_of_program`. -/
theorem run_with_nearest {p : Program} (accepted : p.resolution.outcome = .ok ())
    (nodup : p.useIds.Nodup) (first : p.DeclaredFirst) (console : Console) (debugLevel fuel : Nat) :
    p.freshRunNearest console debugLevel fuel = p.freshRun console debugLevel fuel := by
  obtain ⟨trace, installed⟩ := Acting.install_eq p.resolution (.start console debugLevel)
  rw [accepted] at installed
  have same : interpret Access.nearest.steps fuel p { Machine.initial console debugLevel with trace } =
      interpret (Access.distances p.distances).steps fuel p
        { Machine.initial console debugLevel with trace } :=
    interpret_nearest accepted nodup first fuel rfl
  let s : Session := ⟨{ Machine.initial console debugLevel with trace }, p.distances, 1⟩
  have performed : s.after (Acting.perform fun _ => interpret Access.nearest.steps fuel p) =
      s.after (Acting.runTrees fuel p) := by
    simp only [s, Session.after, Acting.runTrees, Acting.perform, same]
  rw [Program.freshRunNearest, Program.freshRun, Session.after, Session.after,
    run_bind_of_ok installed, run_bind_of_ok installed]
  exact performed

/-- The function of a block finds the variable of the block, which was declared before it. -/
theorem run_with_nearest_in_function :
    let a : Token := ⟨.identifier, "a", .nil, 1⟩
    let f : Token := ⟨.identifier, "f", .nil, 1⟩
    let keyword : Token := ⟨.funWord, "fun", .nil, 1⟩
    let paren : Token := ⟨.rightParen, ")", .nil, 1⟩
    let p : Program := [.block [.declaration a none,
      .declaration f (some (.lambda 2 keyword [] [.expression (.reference 1 a)] (some f))),
      .expression (.call 4 (.reference 3 f) [] paren)]]
    let console : Console := .ofInput "" none false fun _ => 0
    p.resolution.outcome = .ok () ∧ p.useIds.Nodup ∧ p.DeclaredFirst ∧
      p.freshRunNearest console 0 9 = p.freshRun console 0 9 := by
  intro a f keyword paren p console
  have accepted : p.resolution.outcome = .ok () := by
    have isOk : p.resolution.outcome.isOk = true := by decide +kernel
    revert isOk
    cases p.resolution.outcome with
    | error e => exact nofun
    | ok u => exact fun _ => rfl
  have nodup : p.useIds.Nodup := by decide
  have first : p.DeclaredFirst := by decide +kernel
  exact ⟨accepted, nodup, first, run_with_nearest accepted nodup first console 0 9⟩

/-- A function may be declared before a variable of its name that it uses: with the distances it finds
no variable then, and the nearest one is that of the block. -/
example :
    let a : Token := ⟨.identifier, "a", .nil, 1⟩
    let f : Token := ⟨.identifier, "f", .nil, 1⟩
    let keyword : Token := ⟨.funWord, "fun", .nil, 1⟩
    let paren : Token := ⟨.rightParen, ")", .nil, 1⟩
    let p : Program := [.block [
      .declaration f (some (.lambda 2 keyword [] [.expression (.reference 1 a)] (some f))),
      .declaration a none, .expression (.call 4 (.reference 3 f) [] paren)]]
    let console : Console := .ofInput "" none false fun _ => 0
    p.resolution.outcome.isOk ∧ p.useIds.Nodup ∧ ¬ p.DeclaredFirst ∧
      (p.freshRun console 0 9).1.isOk = false ∧ (p.freshRunNearest console 0 9).1.isOk := by
  decide +kernel

end Lox
