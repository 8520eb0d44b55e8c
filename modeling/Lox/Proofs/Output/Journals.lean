import Lox.Proofs.Runs.Together
import Lox.Proofs.Sessions.Stages

/-!
# Journals of what is printed

All that a run does but to print has nothing to do with the output: with another output it does the
same. A run with a journal does what the run itself does, and keeps every call of `print` with the
machine that it found.
-/

namespace Lox

section
variable {ε σ σ' α β : Type}

/-! ## Runs and changes of their states -/

/-- The end of a run, with a changed state. -/
def mapState (f : σ → σ') : EStateM.Result ε σ α → EStateM.Result ε σ' α
  | .ok a s => .ok a (f s)
  | .error e s => .error e (f s)

theorem endTogether_mapState {R : σ → σ' → Prop} {τ : Type} {f : τ → σ} {g : τ → σ'}
    {result : EStateM.Result ε τ α} (states : R (f (stateLeft result)) (g (stateLeft result))) :
    EndTogether R (mapState f result) (mapState g result) := by
  cases result with
  | ok a s => exact .ok a states
  | error e s => exact .error e states

/-- It makes no difference whether a state is changed before a run or after it. -/
def Commutes (f : σ → σ) (run : EStateM ε σ α) : Prop := ∀ s, run (f s) = mapState f (run s)

variable {f : σ → σ}

theorem commutes_pure (a : α) : Commutes f (pure a : EStateM ε σ α) := fun _ => rfl

theorem commutes_throw (e : ε) : Commutes f (throw e : EStateM ε σ α) := fun _ => rfl

theorem commutes_modify {g : σ → σ} (same : ∀ s, g (f s) = f (g s)) :
    Commutes f (modify g : EStateM ε σ PUnit) :=
  fun s => congrArg (EStateM.Result.ok PUnit.unit) (same s)

theorem Commutes.bind {run : EStateM ε σ α} {next : α → EStateM ε σ β} (first : Commutes f run)
    (second : ∀ a, Commutes f (next a)) : Commutes f (run >>= next) := by
  intro s
  have same := first s
  cases ran : run s with
  | ok a t =>
    rw [ran] at same
    rw [run_bind_of_ok same, run_bind_of_ok ran]
    exact second a t
  | error e t =>
    rw [ran] at same
    rw [run_bind_of_error same, run_bind_of_error ran]
    rfl

/-- A part of the state that any other can stand for is left as it is. -/
theorem part_of_commutes {τ : Type} {run : EStateM ε σ α} (part : σ → τ) {put : τ → σ → σ}
    (commutes : ∀ x, Commutes (put x) run) (put_part : ∀ s, put (part s) s = s)
    (part_put : ∀ x s, part (put x s) = x) (s : σ) : part (stateLeft (run s)) = part s := by
  have same := commutes (part s) s
  rw [put_part] at same
  rw [same]
  cases run s <;> exact part_put _ _

theorem Commutes.forM {each : β → EStateM ε σ PUnit} (all : ∀ b, Commutes f (each b)) (bs : List β) :
    Commutes f (bs.forM each) := by
  induction bs with
  | nil => exact commutes_pure PUnit.unit
  | cons b rest ih => exact (all b).bind fun _ => ih

end

/-! ## Output -/

/-- What was written, and how many more texts can be, if not any number. -/
structure Output where
  written : Array String
  left : Option Nat

/-- The output of a machine. -/
def Machine.output (m : Machine) : Output := ⟨m.console.written, m.console.writesLeft⟩

/-- A machine with another output. -/
def Machine.withOutput (o : Output) (m : Machine) : Machine :=
  { m with console := { m.console with written := o.written, writesLeft := o.left } }

/-- A session with another output. -/
def Session.withOutput (o : Output) (s : Session) : Session :=
  { s with machine := s.machine.withOutput o }

/-- A run does the same with any output, and leaves it as it is. -/
def IgnoresOutput {α : Type} (run : Running α) : Prop := ∀ o, Commutes (Machine.withOutput o) run

theorem IgnoresOutput.output_eq {α : Type} {run : Running α} (ignores : IgnoresOutput run)
    (m : Machine) : (stateLeft (run m)).output = m.output :=
  part_of_commutes Machine.output ignores (fun _ => rfl) (fun _ _ => rfl) m

namespace Running

variable {α : Type} {o : Output}

theorem commutes_ofFound (name : Token) (found : Except Missing α) :
    Commutes (Machine.withOutput o) (ofFound name found) := by
  cases found with
  | ok a => exact commutes_pure a
  | error missing => exact commutes_throw _

theorem ignoresOutput_lookUp (access : Access) (env : Env) (id : Nat) (name : Token) :
    IgnoresOutput (lookUp access env id name) :=
  fun _ m => commutes_ofFound name _ m

theorem commutes_modifyStore (f : Store → Store) : Commutes (Machine.withOutput o) (modifyStore f) :=
  commutes_modify fun _ => rfl

theorem ignoresOutput_assign (access : Access) (env : Env) (id : Nat) (name : Token) (v : Value) :
    IgnoresOutput (assign access env id name v) := by
  intro o
  have owner : Commutes (Machine.withOutput o) (ownerOf access env id name) :=
    fun m => commutes_ofFound name _ m
  exact owner.bind fun _ => commutes_modifyStore _

theorem ignoresOutput_note (e : Event) : IgnoresOutput (note e) := fun _ => commutes_modify fun _ => rfl

theorem ignoresOutput_define (env : Env) (name : Token) (v : Value) :
    IgnoresOutput (define env name v) :=
  fun o => (commutes_modifyStore _).bind fun _ => ignoresOutput_note _ o

theorem ignoresOutput_newFrame (outer : List Ref) : IgnoresOutput (newFrame outer) := fun _ _ => rfl

theorem ignoresOutput_close (env : Env) (keyword : Token) (params : List Token) (body : List Stmt)
    (name : Option Token) : IgnoresOutput (close env keyword params body name) :=
  fun _ _ => rfl

theorem ignoresOutput_bindArguments (c : Closure) (vs : List Value) :
    IgnoresOutput (bindArguments c vs) :=
  fun o => (ignoresOutput_newFrame _ o).bind fun _ =>
    (commutes_modifyStore _).bind fun _ => commutes_pure _

theorem ignoresOutput_readLine : IgnoresOutput readLine := by
  intro o m
  show (if m.console.readFails then fail .reading none else takeLine m.console.unread)
    (m.withOutput o) =
      mapState _ ((if m.console.readFails then fail .reading none else takeLine m.console.unread) m)
  split
  · rfl
  · cases m.console.unread <;> rfl

/-- Of all native functions only `print` has to do with the output. -/
theorem ignoresOutput_callNative {f : Native} (notPrint : f ≠ .print) (vs : List Value) :
    IgnoresOutput (callNative f vs) := by
  cases f with
  | clock => exact fun _ _ => rfl
  | print => exact absurd rfl notPrint
  | input =>
    refine fun o => (ignoresOutput_readLine o).bind fun line => ?_
    cases line with
    | none => exact commutes_pure _
    | some line => exact commutes_pure _

end Running

namespace Acting

variable {α : Type} {o : Output}

theorem commutes_note (e : Event) : Commutes (Session.withOutput o) (note e) :=
  commutes_modify fun _ => rfl

theorem commutes_tokens (source : String) : Commutes (Session.withOutput o) (tokens source) := by
  unfold tokens
  cases tokenize source.toList with
  | ok stream => exact commutes_pure stream
  | error defects => exact commutes_throw _

theorem commutes_read (reading : Nat → Except SyntaxError α × Nat) :
    Commutes (Session.withOutput o) (read reading) := by
  intro s
  rcases outcome : reading s.nextId with ⟨e | x, n⟩
  · rw [read_of_error outcome, read_of_error (s := s.withOutput o) outcome]
    rfl
  · rw [read_of_ok outcome, read_of_ok (s := s.withOutput o) outcome]
    rfl

theorem commutes_parse (source : String) : Commutes (Session.withOutput o) (parse source) :=
  (commutes_tokens source).bind fun stream => (commutes_note _).bind fun _ =>
    (commutes_read stream.program).bind fun p =>
      (Commutes.forM (fun _ => commutes_note _) p).bind fun _ => commutes_pure p

theorem commutes_install (r : Resolution) : Commutes (Session.withOutput o) (install r) := by
  refine Commutes.bind (commutes_modify fun _ => rfl) fun _ => ?_
  refine (Commutes.forM (fun _ => commutes_note _) _).bind fun _ => ?_
  rcases r.outcome with (e | kind) | _
  · exact commutes_throw _
  · exact commutes_throw _
  · exact commutes_pure ()

/-- Does with a program text what comes before it is run. -/
def prepare (source : String) : Acting Program := do
  let p ← parse source
  install p.resolution
  return p

theorem commutes_prepare (source : String) : Commutes (Session.withOutput o) (prepare source) :=
  (commutes_parse source).bind fun p => (commutes_install p.resolution).bind fun _ => commutes_pure p

theorem output_prepare (source : String) (s : Session) :
    (stateLeft (prepare source s)).machine.output = s.machine.output :=
  part_of_commutes (fun s : Session => s.machine.output) (fun _ => commutes_prepare source)
    (fun _ => rfl) (fun _ _ => rfl) s

theorem run_eq (fuel : Nat) (source : String) :
    run fuel source = do
      let p ← prepare source
      perform fun steps => interpret steps fuel p
      return p.length := by
  simp only [run, prepare, bind_assoc, pure_bind]

end Acting

/-! ## Journals -/

/-- A call of `print`. -/
structure PrintCall where
  /-- The machine that the call found. -/
  found : Machine
  /-- What the call was to write. -/
  text : String

/-- A machine, and the calls of `print` so far. -/
structure Journal where
  machine : Machine
  prints : List PrintCall

namespace Journal

/-- Does something to the machine alone. -/
def onMachine {α : Type} (run : Running α) : RunningOn Journal α := fun j =>
  mapState ({ j with machine := · }) (run j.machine)

/-- Keeps a call of a native function if it is one of `print`. -/
def keep : Native → List Value → RunningOn Journal Unit
  | .print, arguments => modify fun j =>
    let text := " ".intercalate (arguments.map (·.text)) ++ "\n"
    { j with prints := j.prints ++ [⟨j.machine, text⟩] }
  | _, _ => pure ()

/-- The steps of a machine with a journal. -/
def steps (access : Access) : Steps Journal where
  lookUp env id name := onMachine (Running.lookUp access env id name)
  assign env id name v := onMachine (Running.assign access env id name v)
  define env name v := onMachine (Running.define env name v)
  openBlock env _ := onMachine (Running.newFrame env.chain)
  close env keyword params body name := onMachine (Running.close env keyword params body name)
  bindArguments c arguments := onMachine (Running.bindArguments c arguments)
  callNative f arguments := do
    keep f arguments
    onMachine (Running.callNative f arguments)
  note e := onMachine (Running.note e)

end Journal

/-- The calls of `print` that a program text makes when it is run in a session, in order. -/
def Session.prints (s : Session) (fuel : Nat) (source : String) : List PrintCall :=
  match Acting.prepare source s with
  | .ok p s =>
    (stateLeft (interpret (Journal.steps (.distances s.table)) fuel p ⟨s.machine, []⟩)).prints
  | .error .. => []

end Lox
