import Lox.Proofs.Runs.Fuel
import Lox.Proofs.Runs.Stores
import Lox.Proofs.Sessions.Stages

/-!
# Listening to input

A second way to run texts, which keeps the values that the calls of `input` give. It ends as the run
itself does, and what it hears are the lines that the run took off the input, in order, and `nil` for
each call that found no more lines. A run takes lines in no other way, and only adds to what is written.
-/

namespace Lox

/-- A state, and the values that calls of `input` have given so far. -/
structure Listening (σ : Type) where
  state : σ
  heard : List Value

namespace Listening

variable {ε σ α : Type}

/-- Does something that calls no `input`. -/
def lift (run : EStateM ε σ α) : EStateM ε (Listening σ) α := fun w =>
  match run w.state with
  | .ok a s => .ok a { w with state := s }
  | .error e s => .error e { w with state := s }

/-- Keeps a value that `input` gave. -/
def hear (v : Value) : RunningOn (Listening σ) Unit :=
  modify fun w => { w with heard := w.heard ++ [v] }

/-- A call of a native function; what `input` gives is kept. -/
def callNative (f : Native) (arguments : List Value) : RunningOn (Listening Machine) Value := do
  let v ← lift (Running.callNative f arguments)
  if f = .input then hear v
  return v

/-- The steps of a machine that is listened to. -/
def steps (access : Access) : Steps (Listening Machine) where
  lookUp env id name := lift (Running.lookUp access env id name)
  assign env id name v := lift (Running.assign access env id name v)
  define env name v := lift (Running.define env name v)
  openBlock env _ := lift (Running.newFrame env.chain)
  close env keyword params body name := lift (Running.close env keyword params body name)
  bindArguments c arguments := lift (Running.bindArguments c arguments)
  callNative := callNative
  note e := lift (Running.note e)

/-- Runs something with the distances noted so far. -/
def perform (running : Steps (Listening Machine) → RunningOn (Listening Machine) α) :
    EStateM Failure (Listening Session) α := fun ⟨⟨machine, table, nextId⟩, heard⟩ =>
  match running (steps (.distances table)) ⟨machine, heard⟩ with
  | .ok x ⟨machine, heard⟩ => .ok x ⟨⟨machine, table, nextId⟩, heard⟩
  | .error stop ⟨machine, heard⟩ => .error (.stopped stop) ⟨⟨machine, table, nextId⟩, heard⟩

/-- Runs a program text, and tells the number of its statements. -/
def run (fuel : Nat) (source : String) : EStateM Failure (Listening Session) Nat := do
  let p ← lift (Acting.parse source)
  lift (Acting.install p.resolution)
  perform fun steps => interpret steps fuel p
  return p.length

/-- Does something in a session that is listened to. -/
def after (w : Listening Session) (acting : EStateM Failure (Listening Session) α) :
    Except Failure α × Listening Session :=
  match acting w with
  | .ok x w => (.ok x, w)
  | .error e w => (.error e, w)

end Listening

/-! ## What is heard -/

/-- The value that `input` gives for a line. -/
def lineValue (line : List Char) : Value := .str (String.ofList (Text.trimLineEnd line))

/-- Calls of `input` gave values for lines that they took off the input, and `nil` only once the input
had ended. -/
structure Heard (unread read : List (List Char)) (heard : List Value) (left : List (List Char)) :
    Prop where
  lines : unread = read ++ left
  values : ∃ beyond, heard = read.map lineValue ++ List.replicate beyond .nil ∧
    (beyond = 0 ∨ left = [])

namespace Heard

variable {unread read left : List (List Char)} {heard : List Value}

theorem none (unread : List (List Char)) : Heard unread [] [] unread := ⟨rfl, 0, rfl, .inl rfl⟩

/-- One more call that takes a line. -/
theorem line {line : List Char} (sofar : Heard unread read heard (line :: left)) :
    Heard unread (read ++ [line]) (heard ++ [lineValue line]) left := by
  obtain ⟨lines, beyond, values, ended⟩ := sofar
  obtain rfl : beyond = 0 := ended.resolve_right (List.cons_ne_nil line left)
  refine ⟨?_, 0, ?_, .inl rfl⟩
  · rw [lines, List.append_assoc, List.singleton_append]
  · rw [values]
    simp

/-- One more call that finds no line. -/
theorem ended (sofar : Heard unread read heard []) : Heard unread read (heard ++ [.nil]) [] := by
  obtain ⟨lines, beyond, values, _⟩ := sofar
  refine ⟨lines, beyond + 1, ?_, .inr rfl⟩
  rw [values, List.append_assoc, List.replicate_succ']

end Heard

/-- From one state to another one nothing was taken off the input, and what was written is still
there. -/
structure Told {σ : Type} (console : σ → Console) (s s' : σ) : Prop where
  unread : (console s').unread = (console s).unread
  written : (console s).written.toList <+: (console s').written.toList

instance {σ : Type} {console : σ → Console} : Std.Refl (Told console) :=
  ⟨fun _ => ⟨rfl, List.prefix_rfl⟩⟩

instance {σ : Type} {console : σ → Console} : Trans (Told console) (Told console) (Told console) :=
  ⟨fun first second => ⟨second.unread.trans first.unread, first.written.trans second.written⟩⟩

/-- Some time after a console was the given one, a state is listened to: what was heard meanwhile was
taken off the input, and what was written is still there. -/
structure Listening.Follows {σ : Type} (console : σ → Console) (first : Console) (s : σ)
    (w : Listening σ) : Prop where
  state : w.state = s
  heard : ∃ read, Heard first.unread read w.heard (console s).unread
  written : first.written.toList <+: (console s).written.toList

/-- What takes nothing off the input goes together with being listened to. -/
theorem together_lift {ε σ α : Type} {console : σ → Console} {first : Console} {bad : ε → Prop}
    {run : EStateM ε σ α} (told : Keeps (Told console) run) :
    Together (Listening.Follows console first) bad run (Listening.lift run) := by
  rintro s w ⟨rfl, ⟨read, heard⟩, written⟩
  have told := told w.state
  unfold Listening.lift
  refine .inr ?_
  cases ran : run w.state with
  | ok a s =>
    rw [ran] at told
    exact .ok a ⟨rfl, ⟨read, told.unread ▸ heard⟩, written.trans told.written⟩
  | error e s =>
    rw [ran] at told
    exact .error e ⟨rfl, ⟨read, told.unread ▸ heard⟩, written.trans told.written⟩

/-! ## The steps of machines -/

section
variable {α : Type}

open Running

private theorem told_ofFound (name : Token) (found : Except Missing α) :
    Keeps (Told Machine.console) (ofFound name found) := by
  cases found with
  | ok a => exact keeps_pure a
  | error missing => exact keeps_throw _

private theorem told_modifyStore (f : Store → Store) : Keeps (Told Machine.console) (modifyStore f) :=
  keeps_modify fun _ => ⟨rfl, List.prefix_rfl⟩

private theorem told_assign (access : Access) (env : Env) (id : Nat) (name : Token) (v : Value) :
    Keeps (Told Machine.console) (assign access env id name v) :=
  Keeps.bind (keeps_get.bind fun _ => told_ofFound name _) fun _ => told_modifyStore _

private theorem told_note (e : Event) : Keeps (Told Machine.console) (note e) :=
  keeps_modify fun _ => ⟨rfl, List.prefix_rfl⟩

private theorem told_newFrame (outer : List Ref) : Keeps (Told Machine.console) (newFrame outer) :=
  fun _ => ⟨rfl, List.prefix_rfl⟩

private theorem told_writeLine (text : String) : Keeps (Told Machine.console) (writeLine text) := by
  refine keeps_get.bind fun m => ?_
  split
  · refine keeps_modify fun m => ⟨rfl, ?_⟩
    show m.console.written.toList <+: (m.console.written.push _).toList
    rw [Array.toList_push]
    exact List.prefix_append _ _
  · exact keeps_throw _

private theorem told_readClock : Keeps (Told Machine.console) readClock :=
  keeps_get.bind fun _ => (keeps_modify fun _ => ⟨rfl, List.prefix_rfl⟩).bind fun _ => keeps_pure _

variable {first : Console} {bad : Stop → Prop}

private theorem readLine_eq (m : Machine) : readLine m =
    if m.console.readFails then .error (.error ⟨.reading, none, []⟩) m
    else match m.console.unread with
      | [] => .ok none m
      | line :: rest =>
        .ok (some (Text.trimLineEnd line)) { m with console := { m.console with unread := rest } } := by
  show (if m.console.readFails = true then fail .reading none else takeLine m.console.unread) m = _
  cases m.console.readFails with
  | true => rfl
  | false => cases m.console.unread <;> rfl

private theorem hears {arguments : List Value} {w : Listening Machine} {v : Value} {m : Machine}
    (given : Running.callNative .input arguments w.state = .ok v m) :
    Listening.callNative .input arguments w = .ok v ⟨m, w.heard ++ [v]⟩ := by
  have lifted : Listening.lift (Running.callNative .input arguments) w = .ok v { w with state := m } := by
    unfold Listening.lift
    rw [given]
  exact run_bind_of_ok lifted

/-- A call of `input` takes a line, or finds none, or cannot read. -/
private theorem together_input (arguments : List Value) :
    Together (Listening.Follows Machine.console first) bad (Running.callNative .input arguments)
      (Listening.callNative .input arguments) := by
  rintro m w ⟨rfl, ⟨read, heard⟩, written⟩
  have reading := readLine_eq w.state
  refine .inr ?_
  split at reading
  · have failed : Running.callNative .input arguments w.state = _ := run_bind_of_error reading
    have lifted : Listening.lift (Running.callNative .input arguments) w =
        .error (.error ⟨.reading, none, []⟩) w := by
      unfold Listening.lift
      rw [failed]
    have failed' : Listening.callNative .input arguments w = _ := run_bind_of_error lifted
    rw [failed, failed']
    exact .error _ ⟨rfl, ⟨read, heard⟩, written⟩
  · split at reading
    · next ended =>
      have given : Running.callNative .input arguments w.state = .ok .nil _ := run_bind_of_ok reading
      rw [given, hears given]
      refine .ok Value.nil ⟨rfl, ⟨read, ?_⟩, written⟩
      rw [ended] at heard ⊢
      exact heard.ended
    · next line rest lines =>
      have given : Running.callNative .input arguments w.state = .ok (lineValue line) _ :=
        run_bind_of_ok reading
      rw [given, hears given]
      rw [lines] at heard
      exact .ok _ ⟨rfl, ⟨read ++ [line], heard.line⟩, written⟩

private theorem together_callNative (f : Native) (arguments : List Value) :
    Together (Listening.Follows Machine.console first) bad (Running.callNative f arguments)
      (Listening.callNative f arguments) := by
  have unheard (told : Keeps (Told Machine.console) (Running.callNative f arguments))
      (other : f ≠ .input) : Together (Listening.Follows Machine.console first) bad
        (Running.callNative f arguments) (Listening.callNative f arguments) := by
    simp only [Listening.callNative, other, if_false, bind_pure]
    exact together_lift told
  cases f with
  | clock => exact unheard (told_readClock.bind fun _ => keeps_pure _) nofun
  | print => exact unheard ((told_writeLine _).bind fun _ => keeps_pure _) nofun
  | input => exact together_input arguments

/-- The steps of a machine go together with being listened to. -/
theorem together_listening (access : Access) :
    access.steps.Together (Listening.Follows Machine.console first) (fun _ => False)
      (Listening.steps access) where
  lookUp _ _ name := together_lift (keeps_get.bind fun _ => told_ofFound name _)
  assign _ _ _ _ := together_lift (told_assign access _ _ _ _)
  define _ _ _ := together_lift ((told_modifyStore _).bind fun _ => told_note _)
  openBlock env _ := together_lift (told_newFrame env.chain)
  close _ _ _ _ _ := together_lift fun _ => ⟨rfl, List.prefix_rfl⟩
  bindArguments c _ := together_lift <|
    (told_newFrame c.env.chain).bind fun _ => (told_modifyStore _).bind fun _ => keeps_pure _
  callNative := together_callNative
  condition _ := together_lift (told_note _)
  called _ _ := together_lift (told_note _)
  literal _ _ := rfl
  inCall _ _ := False.elim

end

/-! ## Sessions -/

/-- What a session reads and writes. -/
def Session.console (s : Session) : Console := s.machine.console

section
variable {first : Console} {bad : Failure → Prop}

private theorem told_parse (source : String) :
    Keeps (Told Session.console) (Acting.parse source) := by
  intro s
  have readAs := Acting.parse_readAs s source
  generalize Acting.parse source s = result at readAs
  cases readAs <;> exact ⟨rfl, List.prefix_rfl⟩

private theorem told_install (r : Resolution) :
    Keeps (Told Session.console) (Acting.install r) := by
  intro s
  obtain ⟨trace, installed⟩ := Acting.install_eq r s
  rw [installed]
  rcases r.outcome with (e | kind) | _ <;> exact ⟨rfl, List.prefix_rfl⟩

private theorem together_perform (fuel : Nat) (p : Program) :
    Together (Listening.Follows Session.console first) bad
      (Acting.perform fun steps => interpret steps fuel p)
      (Listening.perform fun steps => interpret steps fuel p) := by
  rintro ⟨machine, table, nextId⟩ ⟨_, values⟩ ⟨rfl, heard, written⟩
  have follows : Listening.Follows Machine.console first machine ⟨machine, values⟩ :=
    ⟨rfl, heard, written⟩
  have ends := (together_interpret (together_listening (.distances table)) (.inl rfl) fuel p).ends
    follows
  refine .inr ?_
  unfold Acting.perform Listening.perform
  dsimp only
  generalize interpret _ fuel p machine = result at ends
  generalize interpret _ fuel p (⟨machine, values⟩ : Listening Machine) = result' at ends
  cases ends with
  | ok a states =>
    obtain ⟨rfl, heard, written⟩ := states
    exact .ok a ⟨rfl, heard, written⟩
  | error e states =>
    obtain ⟨rfl, heard, written⟩ := states
    exact .error _ ⟨rfl, heard, written⟩

/-- A run goes together with being listened to. -/
theorem together_run (fuel : Nat) (source : String) :
    Together (Listening.Follows Session.console first) bad (Acting.run fuel source)
      (Listening.run fuel source) :=
  (together_lift (told_parse source)).bind fun p =>
    (together_lift (told_install p.resolution)).bind fun _ =>
      (together_perform fuel p).bind fun _ => together_pure p.length

end

/-- A run that is listened to does not change with more fuel, once it ends. -/
theorem prolonged_listening (source : String) {n m : Nat} (more : n ≤ m) :
    Prolonged (.stopped .outOfFuel) (Listening.run n source) (Listening.run m source) := by
  refine (SameUnless.refl _).bind fun p => (SameUnless.refl _).bind fun _ =>
    SameUnless.bind ?_ fun _ => .refl _
  rintro ⟨⟨machine, table, nextId⟩, heard⟩
  unfold Listening.perform
  rcases prolonged_interpret (Listening.steps (.distances table)) p more ⟨machine, heard⟩ with
    ⟨e, ⟨m, heard⟩, stopped, rfl⟩ | same
  · exact .inl ⟨_, ⟨⟨m, table, nextId⟩, heard⟩, by simp only [stopped], rfl⟩
  · exact .inr (by simp only [same])

end Lox
