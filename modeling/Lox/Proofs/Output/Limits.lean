import Lox.Proofs.Calls.Raised
import Lox.Proofs.Output.Journals

/-!
# When the output fails

Main statement: a program that can write only so many texts does what it does without a limit, up to
the first call of `print` that is above the limit. There it ends, and nothing more is done.
-/

namespace Lox

open Running

/-- The texts written so far. -/
def Machine.written (m : Machine) : List String := m.console.written.toList

/-- A machine that can write so many more texts, if not any number. -/
def Machine.limited (left : Option Nat) (m : Machine) : Machine :=
  m.withOutput ⟨m.console.written, left⟩

/-- A session that can write so many more texts, if not any number. -/
def Session.limited (left : Option Nat) (s : Session) : Session :=
  s.withOutput ⟨s.machine.console.written, left⟩

/-- The texts of calls of `print`. -/
def PrintCall.texts (prints : List PrintCall) : List String := prints.map (·.text)

/-! ## Machines with a limit and with a journal -/

namespace Journal

/-- A machine with a journal has no limit, and what it wrote are the texts in the journal. -/
structure Sound (before : List String) (j : Journal) : Prop where
  unlimited : j.machine.console.writesLeft = none
  written : j.machine.written = before ++ PrintCall.texts j.prints

/-- The calls in the journal of the second machine and the writes that the first one has left make up a
number. Else the machines are the same. -/
structure Limits (before : List String) (n : Nat) (m : Machine) (j : Journal) : Prop where
  sound : j.Sound before
  limit : ∃ left, j.prints.length + left = n ∧ m = j.machine.limited (some left)

/-- A machine was stopped at the first of the calls that it had no write left for. -/
structure Stopped (before : List String) (n : Nat) (e : Stop) (m : Machine)
    (prints : List PrintCall) : Prop where
  failed : ∃ context, e = .error ⟨.writing, none, context⟩
  call : ∃ print, prints[n]? = some print ∧ m = print.found.limited (some 0) ∧
    print.found.written = before ++ PrintCall.texts (prints.take n)

section
variable {α : Type} {before : List String} {n : Nat}

theorem Stopped.later {e : Stop} {m : Machine} {prints prints' : List PrintCall}
    (stopped : Stopped before n e m prints) (further : prints <+: prints') :
    Stopped before n e m prints' := by
  obtain ⟨more, rfl⟩ := further
  obtain ⟨failed, print, isPrint, found, written⟩ := stopped
  have below : n < prints.length := (List.getElem?_eq_some_iff.1 isPrint).1
  refine ⟨failed, print, ?_, found, ?_⟩
  · rw [List.getElem?_append_left below, isPrint]
  · rw [List.take_append_of_le_length (Nat.le_of_lt below), written]

/-- The end of a machine with a limit, and the journal of a machine without one. -/
abbrev StoppedIn (before : List String) (n : Nat) (e : Stop) (m : Machine) (j : Journal) : Prop :=
  Stopped before n e m j.prints

theorem prints_onMachine (run : Running α) (j : Journal) :
    (stateLeft (onMachine run j)).prints = j.prints := by
  unfold onMachine
  cases run j.machine <;> rfl

theorem Sound.withMachine {j : Journal} {m : Machine} (sound : j.Sound before)
    (same : m.output = j.machine.output) : Sound before { j with machine := m } := by
  obtain ⟨sameWritten, sameLeft⟩ := Output.mk.inj same
  exact ⟨sameLeft.trans sound.unlimited, (congrArg Array.toList sameWritten).trans sound.written⟩

/-- What has nothing to do with the output is done in the same way with a limit. -/
theorem parting_onMachine {run : Running α} (ignores : IgnoresOutput run) :
    Parting (Limits before n) (StoppedIn before n) run (onMachine run) := by
  refine ⟨?_, fun e t j stopped => stopped.later (prints_onMachine run j ▸ List.prefix_rfl)⟩
  rintro _ j ⟨sound, left, count, rfl⟩
  have same : run (j.machine.limited (some left)) = _ := ignores _ j.machine
  have output := ignores.output_eq j.machine
  rw [same]
  refine .inr (endTogether_mapState ⟨sound.withMachine output, left, count, ?_⟩)
  exact congrArg (fun w => Machine.withOutput ⟨w, some left⟩ (stateLeft (run j.machine)))
    (congrArg Output.written output).symm

/-- The text of a call of `print`. -/
def line (vs : List Value) : String := " ".intercalate (vs.map (·.text)) ++ "\n"

theorem callNative_print_of_writable {m : Machine} (writable : m.console.writable)
    (vs : List Value) :
    callNative .print vs m = .ok .nil { m with console := m.console.write (line vs) } := by
  have wrote : writeLine (" ".intercalate (vs.map (·.text))) m =
      .ok () { m with console := m.console.write (line vs) } := by
    show (if m.console.writable then _ else _ : Running Unit) m = _
    rw [if_pos writable]
    rfl
  rw [callNative, run_bind_of_ok wrote]
  rfl

theorem callNative_print_of_full {m : Machine} (full : m.console.writesLeft = some 0)
    (vs : List Value) : callNative .print vs m = .error (.error ⟨.writing, none, []⟩) m := by
  have failed : writeLine (" ".intercalate (vs.map (·.text))) m =
      .error (.error ⟨.writing, none, []⟩) m := by
    show (if m.console.writable then _ else _ : Running Unit) m = _
    rw [Console.writable, full]
    rfl
  rw [callNative, run_bind_of_error failed]

theorem Sound.writable {j : Journal} (sound : j.Sound before) : j.machine.console.writable := by
  rw [Console.writable, sound.unlimited]
  rfl

theorem Sound.print {j : Journal} (sound : j.Sound before) (vs : List Value) :
    Sound before ⟨{ j.machine with console := j.machine.console.write (line vs) },
      j.prints ++ [⟨j.machine, line vs⟩]⟩ where
  unlimited := by rw [Console.write, sound.unlimited, Option.map_none]
  written := by
    rw [PrintCall.texts, List.map_append, ← List.append_assoc]
    exact Array.toList_push.trans (congrArg (· ++ [line vs]) sound.written)

theorem keep_print (vs : List Value) (j : Journal) :
    (do keep .print vs; onMachine (callNative .print vs)) j =
      onMachine (callNative .print vs) { j with prints := j.prints ++ [⟨j.machine, line vs⟩] } := rfl

theorem parting_print (vs : List Value) :
    Parting (Limits before n) (StoppedIn before n) (callNative .print vs)
      (do keep .print vs; onMachine (callNative .print vs)) := by
  refine ⟨?_, fun e t j stopped => stopped.later ?_⟩
  · rintro _ j ⟨sound, left, count, rfl⟩
    rw [keep_print, onMachine, callNative_print_of_writable sound.writable]
    cases left with
    | zero =>
      obtain rfl : j.prints.length = n := count
      have isLast : (j.prints ++ [⟨j.machine, line vs⟩])[j.prints.length]? = some ⟨j.machine, line vs⟩ :=
        List.getElem?_concat_length
      refine .inl ⟨_, _, callNative_print_of_full rfl vs, ⟨[], rfl⟩, _, isLast, rfl, ?_⟩
      exact sound.written.trans
        (congrArg (fun prints => before ++ PrintCall.texts prints) List.take_left.symm)
    | succ left =>
      rw [callNative_print_of_writable rfl]
      refine .inr (.ok _ ⟨sound.print vs, left, ?_, rfl⟩)
      rw [← count, List.length_append, List.length_singleton, Nat.add_assoc, Nat.add_comm 1]
  · rw [keep_print, prints_onMachine]
    exact List.prefix_append _ _

/-- A machine with a limit does what the machine with a journal does, until it is stopped. -/
theorem parting_steps (before : List String) (n : Nat) (access : Access) :
    access.steps.Parting (Limits before n) (StoppedIn before n) (Journal.steps access) where
  lookUp env id name := parting_onMachine (ignoresOutput_lookUp access env id name)
  assign env id name v := parting_onMachine (ignoresOutput_assign access env id name v)
  define env name v := parting_onMachine (ignoresOutput_define env name v)
  openBlock env _ := parting_onMachine (ignoresOutput_newFrame env.chain)
  close env keyword params body name :=
    parting_onMachine (ignoresOutput_close env keyword params body name)
  bindArguments c vs := parting_onMachine (ignoresOutput_bindArguments c vs)
  callNative f vs := by
    cases f with
    | clock => exact parting_onMachine (ignoresOutput_callNative (f := .clock) nofun vs)
    | print => exact parting_print vs
    | input => exact parting_onMachine (ignoresOutput_callNative (f := .input) nofun vs)
  condition _ := parting_onMachine (ignoresOutput_note _)
  called _ _ := parting_onMachine (ignoresOutput_note _)
  literal _ _ := rfl
  inCall := by
    rintro step _ t j ⟨⟨context, rfl⟩, call⟩
    exact ⟨⟨step :: context, rfl⟩, call⟩

/-- A machine does what it does with a journal. -/
structure Follows (before : List String) (j : Journal) (m : Machine) : Prop where
  sound : j.Sound before
  machine : m = j.machine

theorem follows_onMachine {run : Running α} (ignores : IgnoresOutput run) :
    Together (Follows before) (fun _ => False) (onMachine run) run := by
  rintro j _ ⟨sound, rfl⟩
  have same : run j.machine = mapState id (run j.machine) := by cases run j.machine <;> rfl
  rw [same]
  exact .inr (endTogether_mapState ⟨sound.withMachine (ignores.output_eq j.machine), rfl⟩)

theorem follows_print (vs : List Value) :
    Together (Follows before) (fun _ => False)
      (do keep .print vs; onMachine (callNative .print vs)) (callNative .print vs) := by
  rintro j _ ⟨sound, rfl⟩
  right
  rw [keep_print, onMachine, callNative_print_of_writable sound.writable]
  exact .ok _ ⟨sound.print vs, rfl⟩

theorem follows_steps (access : Access) :
    (Journal.steps access).Together (Follows before) (fun _ => False) access.steps where
  lookUp env id name := follows_onMachine (ignoresOutput_lookUp access env id name)
  assign env id name v := follows_onMachine (ignoresOutput_assign access env id name v)
  define env name v := follows_onMachine (ignoresOutput_define env name v)
  openBlock env _ := follows_onMachine (ignoresOutput_newFrame env.chain)
  close env keyword params body name :=
    follows_onMachine (ignoresOutput_close env keyword params body name)
  bindArguments c vs := follows_onMachine (ignoresOutput_bindArguments c vs)
  callNative f vs := by
    cases f with
    | clock => exact follows_onMachine (ignoresOutput_callNative (f := .clock) nofun vs)
    | print => exact follows_print vs
    | input => exact follows_onMachine (ignoresOutput_callNative (f := .input) nofun vs)
  condition _ := follows_onMachine (ignoresOutput_note _)
  called _ _ := follows_onMachine (ignoresOutput_note _)
  literal _ _ := rfl
  inCall _ _ := False.elim

end

/-! ## Programs -/

section
variable (access : Access) (fuel : Nat) (p : Program) {m : Machine}
  (unlimited : m.console.writesLeft = none)
include unlimited

theorem sound_empty : Sound m.written ⟨m, []⟩ :=
  ⟨unlimited, (List.append_nil _).symm⟩

/-- A program does without a limit what it does with a journal. -/
theorem interpret_eq_journal :
    let result := interpret (Journal.steps access) fuel p ⟨m, []⟩
    interpret access.steps fuel p m = mapState (·.machine) result ∧ (stateLeft result).Sound m.written := by
  intro result
  have ends := (together_interpret (follows_steps access) (.inl rfl) fuel p).ends
    ⟨sound_empty unlimited, rfl⟩
  change EndTogether _ result _ at ends
  generalize result = journal at ends ⊢
  generalize interpret access.steps fuel p m = plain at ends ⊢
  cases ends with
  | ok a states => exact ⟨by rw [states.machine]; rfl, states.sound⟩
  | error e states => exact ⟨by rw [states.machine]; rfl, states.sound⟩

/-- A program with a limit is stopped, or it does what it does with a journal. -/
theorem interpret_limited (n : Nat) :
    let result := interpret (Journal.steps access) fuel p ⟨m, []⟩
    let limited := interpret access.steps fuel p (m.limited (some n))
    (∃ e t, limited = .error e t ∧ Stopped m.written n e t (stateLeft result).prints) ∨
      ∃ left, (stateLeft result).prints.length + left = n ∧
        limited = mapState (·.machine.limited (some left)) result := by
  intro result limited
  have parting := parting_interpret (parting_steps m.written n access) (.inl rfl) fuel p
  rcases parting.ends _ _ ⟨sound_empty unlimited, n, Nat.zero_add n, rfl⟩ with stopped | ends
  · exact .inl stopped
  · right
    change EndTogether _ limited result at ends
    generalize result = journal at ends ⊢
    generalize limited = ended at ends ⊢
    cases ends with
    | ok a states =>
      obtain ⟨left, count, same⟩ := states.limit
      exact ⟨left, count, by rw [same]; rfl⟩
    | error e states =>
      obtain ⟨left, count, same⟩ := states.limit
      exact ⟨left, count, by rw [same]; rfl⟩

end

end Journal

/-! ## Sessions -/

theorem Session.after_of_failed {α : Type} {s s' : Session} {acting : Acting α} {failure : Failure}
    (failed : acting s = .error failure s') : s.after acting = (.error failure, s') := by
  rw [after, failed]

theorem Session.after_of_mapState {α : Type} {s s' : Session} {acting : Acting α}
    {f : Session → Session} (same : acting s' = mapState f (acting s)) :
    s'.after acting = ((s.after acting).1, f (s.after acting).2) := by
  unfold after
  rw [same]
  cases acting s <;> rfl

/-- The end of what is run in a session. -/
def Session.ending {α : Type} (s : Session) :
    EStateM.Result Stop Machine α → EStateM.Result Failure Session α
  | .ok a m => .ok a { s with machine := m }
  | .error e m => .error (.stopped e) { s with machine := m }

theorem Acting.perform_eq {α : Type} (running : Steps Machine → Running α) (s : Session) :
    perform running s = s.ending (running (Access.distances s.table).steps s.machine) := by
  obtain ⟨machine, table, nextId⟩ := s
  unfold perform
  dsimp only
  cases running (Access.distances table).steps machine <;> rfl

/-- A program with a limit is stopped, or it does what it does without one. -/
theorem Session.perform_limited {s : Session} (unlimited : s.machine.console.writesLeft = none)
    (fuel : Nat) (p : Program) (n : Nat) :
    let run : Acting Unit := Acting.perform fun steps => interpret steps fuel p
    let j := stateLeft (interpret (Journal.steps (.distances s.table)) fuel p ⟨s.machine, []⟩)
    (stateLeft (run s)).machine = j.machine ∧ j.Sound s.machine.written ∧
    ((∃ e m, run (s.limited (some n)) = .error (.stopped e) { stateLeft (run s) with machine := m } ∧
        Journal.Stopped s.machine.written n e m j.prints) ∨
      ∃ left, j.prints.length + left = n ∧
        run (s.limited (some n)) = mapState (Session.limited (some left)) (run s)) := by
  dsimp only
  obtain ⟨plain, sound⟩ := Journal.interpret_eq_journal (.distances s.table) fuel p unlimited
  have limit := Journal.interpret_limited (.distances s.table) fuel p unlimited n
  dsimp only at limit
  rw [Acting.perform_eq, Acting.perform_eq, plain]
  generalize interpret (Journal.steps (.distances s.table)) fuel p ⟨s.machine, []⟩ = result at *
  refine ⟨by cases result <;> rfl, sound, ?_⟩
  rcases limit with ⟨e, m, failed, stopped⟩ | ⟨left, count, same⟩
  · refine .inl ⟨e, m, (congrArg _ failed).trans ?_, stopped⟩
    cases result <;> rfl
  · refine .inr ⟨left, count, (congrArg _ same).trans ?_⟩
    cases result <;> rfl

/-- What comes before a run has nothing to do with a limit, and writes nothing. -/
theorem Session.prepare_limited (s : Session) (source : String) (left : Option Nat) :
    Acting.prepare source (s.limited left) =
        mapState (Session.limited left) (Acting.prepare source s) ∧
      (stateLeft (Acting.prepare source s)).machine.output = s.machine.output := by
  have output := Acting.output_prepare source s
  refine ⟨(Acting.commutes_prepare source s).trans ?_, output⟩
  have written := congrArg Output.written output
  generalize Acting.prepare source s = result at written ⊢
  have isOwn : s.machine.console.written = (stateLeft result).machine.console.written := written.symm
  rw [isOwn]
  cases result <;> rfl

/-- A program text with a limit is stopped, or it does what it does without one. -/
theorem Session.run_limited {s : Session} (unlimited : s.machine.console.writesLeft = none)
    (fuel : Nat) (source : String) (n : Nat) :
    let prints := s.prints fuel source
    let free := Acting.run fuel source s
    let limited := Acting.run fuel source (s.limited (some n))
    (stateLeft free).machine.written = s.machine.written ++ PrintCall.texts prints ∧
    ((∃ e m, limited = .error (.stopped e) { stateLeft free with machine := m } ∧
        Journal.Stopped s.machine.written n e m prints) ∨
      ∃ left, prints.length + left = n ∧ limited = mapState (Session.limited (some left)) free) := by
  obtain ⟨same, output⟩ := s.prepare_limited source (some n)
  dsimp only
  rw [Acting.run_eq, prints]
  cases prepared : Acting.prepare source s with
  | error failure t =>
    rw [prepared] at same output
    rw [run_bind_of_error prepared, run_bind_of_error same]
    refine ⟨?_, .inr ⟨n, Nat.zero_add n, rfl⟩⟩
    exact (congrArg (·.written.toList) output).trans (List.append_nil _).symm
  | ok p t =>
    rw [prepared] at same output
    have free : t.machine.console.writesLeft = none := (congrArg Output.left output).trans unlimited
    have sameTexts : s.machine.written = t.machine.written :=
      (congrArg (·.written.toList) output).symm
    obtain ⟨machine, sound, limit⟩ := t.perform_limited free fuel p n
    rw [run_bind_of_ok prepared, run_bind_of_ok same, stateLeft_return, machine, sameTexts]
    refine ⟨sound.written, ?_⟩
    rcases limit with ⟨e, m, failed, stopped⟩ | ⟨left, count, ended⟩
    · exact .inl ⟨e, m, run_bind_of_error failed, stopped⟩
    · refine .inr ⟨left, count, ?_⟩
      cases ran : Acting.perform (fun steps => interpret steps fuel p) t with
      | ok u t' =>
        rw [ran] at ended
        rw [run_bind_of_ok ended, run_bind_of_ok ran]
        rfl
      | error failure t' =>
        rw [ran] at ended
        rw [run_bind_of_error ended, run_bind_of_error ran]
        rfl

/-- A program text that can write `n` texts does what it does without a limit if it calls `print` at
most `n` times. Else it ends at the first call after these, whether or not the run without a limit ends:
with the error of that call, which has no line and is told the calls that are open, and with all else as
the call found it. -/
theorem Session.stops_when_output_fails (s : Session) (fuel : Nat) (source : String) (n : Nat) :
    let free := (s.limited none).after (Acting.run fuel source)
    let prints := (s.limited none).prints fuel source
    let limited := (s.limited (some n)).after (Acting.run fuel source)
    free.2.machine.written = s.machine.written ++ PrintCall.texts prints ∧
    (prints.length ≤ n → limited = (free.1, free.2.limited (some (n - prints.length)))) ∧
    ∀ print, prints[n]? = some print →
      print.found.written = s.machine.written ++ PrintCall.texts (prints.take n) ∧
      ∃ activations line,
        let context := (activations.flatMap fun a : Activation =>
            [.line a.line, .calling a.function.name a.function.keyword.line]) ++ [.line line]
        limited = (.error (.stopped (.error ⟨.writing, none, context⟩)),
          { free.2 with machine := print.found.limited (some 0) }) ∧
        Recording.run fuel source (.outside (s.limited (some n))) =
          .error (.stopped (.error ⟨.writing, none, []⟩)) ⟨limited.2, activations, some line⟩ := by
  intro free prints limited
  have left : free.2 = stateLeft (Acting.run fuel source (s.limited none)) := after_eq _ _
  obtain ⟨written, limit⟩ := run_limited (s := s.limited none) rfl fuel source n
  refine ⟨by rw [left]; exact written, ?_⟩
  rcases limit with ⟨_, m, failed, ⟨context, rfl⟩, print, isPrint, rfl, found⟩ | ⟨more, count, same⟩
  · have below : n < prints.length := (List.getElem?_eq_some_iff.1 isPrint).1
    refine ⟨fun most => absurd below (Nat.not_lt.2 most), fun print' isPrint' => ?_⟩
    cases isPrint.symm.trans isPrint'
    obtain ⟨activations, native, recorded, raised⟩ := Recording.run_of_error failed
    obtain ⟨line, rfl⟩ := Option.isSome_iff_exists.1 (raised.console.2 trivial)
    obtain rfl : context = _ := raised.context
    have ended : limited = (.error _, _) := after_of_failed failed
    refine ⟨found, activations, line, ?_, ?_⟩
    · rw [ended, left]
      rfl
    · rw [ended]
      exact recorded
  · have all : prints.length + more = n := count
    refine ⟨fun _ => ?_, fun print isPrint => ?_⟩
    · rw [← all, Nat.add_sub_cancel_left]
      exact after_of_mapState same
    · have below : n < prints.length := (List.getElem?_eq_some_iff.1 isPrint).1
      exact absurd below (Nat.not_lt.2 (Nat.le.intro all))

-- All consoles with an input are of this form.
example (input : String) (readFails : Bool) (clock : Nat → Float) (level : Nat) (left : Option Nat) :
    Session.start (.ofInput input left readFails clock) level =
      (Session.start (.ofInput input none readFails clock) level).limited left := rfl

example :
    let s := Session.start (.ofInput "" (some 1) false fun _ => 0) 0
    let left := (s.after (Acting.run 20 "var x = 1;\nprint(x, print(2)); x = 3;")).2
    left.machine.written = ["2\n"] ∧
      (left.after (Acting.global "x")).1.toOption.map (·.text) = some "1" := by decide +kernel

end Lox
