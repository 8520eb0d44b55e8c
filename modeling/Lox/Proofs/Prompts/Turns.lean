import Lox.Prompt
import Lox.Proofs.Prompts.Listening
import Lox.Proofs.Safety.Outcomes

/-!
# Turns of the prompt

The prompt goes over the input turn by turn. A turn shows `> `, takes a line, and runs it as a program
text of the session; lines that calls of `input` take meanwhile are no turns of their own. Then there
stand what the run printed and, if it failed, its message. Every line of the input is taken once and in
order, and all ends with `> ` and a newline, unless a run never ends.
-/

namespace Lox

/-! ## Turns -/

/-- A line that the prompt takes, and what comes of it. -/
structure Turn where
  line : List Char
  /-- The lines that calls of `input` take while the line is run. -/
  read : List (List Char)
  /-- The values that these calls give. -/
  heard : List Value
  printed : List String
  /-- The message of the error that the line fails with. -/
  message : Option String

/-- The program text of a line. -/
def lineSource (line : List Char) : String := String.ofList (Text.trimLineEnd line)

/-- All lines that are taken in a turn. -/
def Turn.lines (t : Turn) : List (List Char) := t.line :: t.read

/-- Every turn takes a line. -/
theorem Turn.length_le (turns : List Turn) : turns.length ≤ (turns.flatMap lines).length := by
  induction turns with
  | nil => exact Nat.le_refl _
  | cons t rest ih =>
    rw [List.flatMap_cons, lines, List.length_append, List.length_cons, List.length_cons]
    omega

/-- All texts that are written in a turn. -/
def Turn.texts (t : Turn) : List String :=
  "> " :: (t.printed ++ (t.message.map (· ++ "\n")).toList)

/-- What is told of a way to end: nothing of a result, and its message of an error. -/
inductive Reported {α : Type} : Except Failure α → Option String → Prop
  | ok (a : α) : Reported (.ok a) none
  | error {failure : Failure} {text : String} (message : failure.message? = some text) :
    Reported (.error failure) (some text)

namespace Session

/-- A session with something done to its console. -/
def onConsole (f : Console → Console) (s : Session) : Session :=
  { s with machine := { s.machine with console := f s.machine.console } }

/-- A session that has shown the prompt and taken a line, with the rest to be read. -/
def asked (rest : List (List Char)) : Session → Session :=
  onConsole fun c => { c.put "> " with unread := rest }

/-- A session that has written a message, if there is one. -/
def reporting : Option String → Session → Session
  | some text => onConsole (·.put (text ++ "\n"))
  | none => id

/-- A session that has shown the prompt and found no line. -/
def farewell : Session → Session := onConsole fun c => (c.put "> ").put "\n"

/-- With all fuel from some on, a text is run in a session and ends so; listened to, it is the same, and
calls of `input` give the values. -/
def Runs (s : Session) (source : String) (ending : Except Failure Nat) (heard : List Value)
    (s' : Session) : Prop :=
  ∃ enough, ∀ fuel ≥ enough, s.after (Acting.run fuel source) = (ending, s') ∧
    Listening.after ⟨s, []⟩ (Listening.run fuel source) = (ending, ⟨s', heard⟩)

/-- What a turn makes of a session. -/
inductive Answers (s : Session) (t : Turn) : Session → Prop
  | intro {rest : List (List Char)} {ending : Except Failure Nat} {left : Session}
    (line : s.console.unread = t.line :: rest)
    (runs : (s.asked rest).Runs (lineSource t.line) ending t.heard left)
    (read : Heard rest t.read t.heard left.console.unread)
    (printed : left.console.written.toList = (s.asked rest).console.written.toList ++ t.printed)
    (reported : Reported ending t.message) : Answers s t (left.reporting t.message)

/-- What turns make of a session, one after the other. -/
inductive Converses : Session → List Turn → Session → Prop
  | silent (s : Session) : Converses s [] s
  | turn {s s' left : Session} {t : Turn} {turns : List Turn} (answers : s.Answers t s')
    (onward : s'.Converses turns left) : Converses s (t :: turns) left

end Session

/-! ## Lines that end -/

theorem Failure.OfProgram.message {failure : Failure} (ofProgram : failure.OfProgram) :
    ∃ text, failure.message? = some text := by
  cases ofProgram <;> exact ⟨_, rfl⟩

theorem exists_reported {α : Type} {ending : Except Failure α}
    (ofProgram : ∀ failure, ending = .error failure → failure.OfProgram) :
    ∃ message, Reported ending message := by
  cases ending with
  | ok a => exact ⟨none, .ok a⟩
  | error failure =>
    obtain ⟨text, message⟩ := (ofProgram failure rfl).message
    exact ⟨some text, .error message⟩

namespace Session

variable {s s' : Session}

/-- The functions of a session fit, whatever programs it has run. -/
def Sound (s : Session) : Prop := ∃ programs, s.Fits programs False

theorem Sound.onConsole (sound : s.Sound) (f : Console → Console) : (s.onConsole f).Sound := by
  obtain ⟨programs, fits⟩ := sound
  exact ⟨programs, fits.store, fits.resolved, fits.below⟩

theorem Sound.reporting (sound : s.Sound) (message : Option String) :
    (s.reporting message).Sound := by
  cases message with
  | none => exact sound
  | some text => exact sound.onConsole (·.put (text ++ "\n"))

/-- A run that is listened to ends as the run itself. -/
theorem listening_after (s : Session) (fuel : Nat) (source : String) :
    (Listening.after ⟨s, []⟩ (Listening.run fuel source)).1 = (s.after (Acting.run fuel source)).1 ∧
      Listening.Follows Session.console s.console (s.after (Acting.run fuel source)).2
        (Listening.after ⟨s, []⟩ (Listening.run fuel source)).2 := by
  have follows : Listening.Follows Session.console s.console s ⟨s, []⟩ :=
    ⟨rfl, ⟨[], .none _⟩, List.prefix_rfl⟩
  have ends := (together_run fuel source).ends follows
  unfold after Listening.after
  generalize Acting.run fuel source s = result at ends
  generalize Listening.run fuel source ⟨s, []⟩ = result' at ends
  cases ends with
  | ok a states => exact ⟨rfl, states⟩
  | error e states => exact ⟨rfl, states⟩

/-- In a sound session a text never ends, or it ends in the same way with all fuel from some on, with a
result or an error of the program. -/
theorem Sound.runs (sound : s.Sound) (source : String) :
    (∀ fuel, (s.after (Acting.run fuel source)).1 = .error (.stopped .outOfFuel)) ∨
      ∃ ending heard s', s.Runs source ending heard s' ∧
        (∀ failure, ending = .error failure → failure.OfProgram) ∧ s'.Sound ∧
        Listening.Follows Session.console s.console s' ⟨s', heard⟩ := by
  obtain ⟨programs, fits⟩ := sound
  have endsWell (fuel : Nat) : EndsWell (programs ++ (s.accepted? source).toList) False
      (Acting.run fuel source s) := endsWell_run fits False.elim fuel
  rcases Session.endsProperly (Acting.prolonged_run source) endsWell with
    never | ⟨ending, s', ofProgram, enough, settled⟩
  · exact .inl never
  have ran := settled enough (Nat.le_refl _)
  obtain ⟨same, follows⟩ := s.listening_after enough source
  rw [ran] at same follows
  generalize listened : Listening.after ⟨s, []⟩ (Listening.run enough source) = result at same follows
  obtain ⟨_, w⟩ := result
  obtain rfl : _ = ending := same
  obtain rfl : w.state = s' := follows.state
  refine .inr ⟨_, w.heard, w.state, ⟨enough, fun fuel more => ⟨settled fuel more, ?_⟩⟩, ofProgram,
    ?_, follows⟩
  · rcases prolonged_listening source more ⟨s, []⟩ with ⟨_, w', stopped, rfl⟩ | longer
    · rw [Listening.after, stopped] at listened
      cases listened
      cases ofProgram _ rfl
    · rw [← listened, Listening.after, Listening.after, longer]
  · have left : (s.after (Acting.run enough source)).2 = w.state := by rw [ran]
    rw [← left, Session.after_eq]
    exact ⟨_, (endsWell enough).fits⟩

/-- A line that is taken is run and answered, or its run never ends. -/
theorem Sound.answers (sound : s.Sound) {line : List Char} {rest : List (List Char)}
    (unread : s.console.unread = line :: rest) :
    (∀ fuel, ((s.asked rest).after (Acting.run fuel (lineSource line))).1 =
        .error (.stopped .outOfFuel)) ∨
      ∃ t s', s.Answers t s' ∧ s'.Sound := by
  have soundAsked : (s.asked rest).Sound := sound.onConsole _
  rcases soundAsked.runs (lineSource line) with
    never | ⟨ending, heard, left, runs, ofProgram, soundLeft, _, ⟨read, isHeard⟩, printed⟩
  · exact .inl never
  · obtain ⟨texts, printed⟩ := printed
    obtain ⟨message, reported⟩ := exists_reported ofProgram
    exact .inr ⟨⟨line, read, heard, texts, message⟩, left.reporting message,
      .intro unread runs isHeard printed.symm reported, soundLeft.reporting message⟩

/-! ## What turns take and write -/

theorem console_reporting (s : Session) (message : Option String) :
    (s.reporting message).console.unread = s.console.unread ∧
      (s.reporting message).console.written.toList =
        s.console.written.toList ++ (message.map (· ++ "\n")).toList := by
  cases message with
  | none => exact ⟨rfl, (List.append_nil _).symm⟩
  | some text => exact ⟨rfl, Array.toList_push⟩

theorem Answers.unread {t : Turn} (answers : s.Answers t s') :
    s.console.unread = t.lines ++ s'.console.unread := by
  cases answers with
  | @intro rest ending left line runs read printed reported =>
    rw [(console_reporting left t.message).1, line, read.lines]
    rfl

theorem Answers.written {t : Turn} (answers : s.Answers t s') :
    s'.console.written.toList = s.console.written.toList ++ t.texts := by
  cases answers with
  | @intro rest ending left line runs read printed reported =>
    have shown : (s.asked rest).console.written.toList = s.console.written.toList ++ ["> "] :=
      Array.toList_push
    rw [(console_reporting left t.message).2, printed, shown, Turn.texts]
    simp only [List.append_assoc, List.cons_append, List.nil_append]

theorem Converses.unread {turns : List Turn} (converses : s.Converses turns s') :
    s.console.unread = turns.flatMap Turn.lines ++ s'.console.unread := by
  induction converses with
  | silent s => rfl
  | turn answers _ ih => rw [answers.unread, ih, List.flatMap_cons, List.append_assoc]

theorem Converses.written {turns : List Turn} (converses : s.Converses turns s') :
    s'.console.written.toList = s.console.written.toList ++ turns.flatMap Turn.texts := by
  induction converses with
  | silent s => exact (List.append_nil _).symm
  | turn answers _ ih => rw [ih, answers.written, List.flatMap_cons, List.append_assoc]

end Session

/-! ## The prompt -/

namespace Acting

variable {s left s' : Session}

private theorem answerLine_of_ok {fuel : Nat} {line : List Char} {n : Nat}
    (ran : run fuel (lineSource line) s = .ok n left) : answerLine fuel line s = .ok () left := by
  have body : (do let _ ← run fuel (lineSource line)) s = .ok () left := run_bind_of_ok ran
  show EStateM.tryCatch (do let _ ← run fuel (lineSource line)) _ s = _
  unfold EStateM.tryCatch
  rw [body]

private theorem answerLine_of_error {fuel : Nat} {line : List Char} {failure : Failure}
    (ran : run fuel (lineSource line) s = .error failure left) :
    answerLine fuel line s =
      (match failure.message? with
        | some text => put (text ++ "\n")
        | none => throw failure : Acting Unit) left := by
  have body : (do let _ ← run fuel (lineSource line)) s = .error failure left :=
    run_bind_of_error ran
  show EStateM.tryCatch (do let _ ← run fuel (lineSource line)) _ s = _
  unfold EStateM.tryCatch
  rw [body]
  rfl

theorem answerLine_reporting {fuel : Nat} {line : List Char} {ending : Except Failure Nat}
    (ran : s.after (run fuel (lineSource line)) = (ending, left)) {message : Option String}
    (reported : Reported ending message) :
    answerLine fuel line s = .ok () (left.reporting message) := by
  unfold Session.after at ran
  cases done : run fuel (lineSource line) s with
  | ok n s' =>
    rw [done] at ran
    cases ran
    cases reported
    exact answerLine_of_ok done
  | error failure s' =>
    rw [done] at ran
    cases ran
    cases reported with
    | @error _ text isText =>
      rw [answerLine_of_error done, isText]
      rfl

private theorem takeLine_of_nil (ended : s.console.unread = []) : takeLine s = .ok none s := by
  have got : (get : Acting Session) s = .ok s s := rfl
  have ended : s.machine.console.unread = [] := ended
  rw [takeLine, run_bind_of_ok got, ended]
  rfl

private theorem takeLine_of_cons {line : List Char} {rest : List (List Char)}
    (unread : s.console.unread = line :: rest) :
    takeLine s = .ok (some line) (s.onConsole ({ · with unread := rest })) := by
  have got : (get : Acting Session) s = .ok s s := rfl
  have unread : s.machine.console.unread = line :: rest := unread
  rw [takeLine, run_bind_of_ok got, unread]
  rfl

section
variable {line : List Char} {rest : List (List Char)} (unread : s.console.unread = line :: rest)
  {fuel : Nat}
include unread

/-- A turn of the prompt takes a line, answers it, and goes on in the session that is left. -/
private theorem converse_of_after {ending : Except Failure Nat}
    (ran : (s.asked rest).after (run fuel (lineSource line)) = (ending, left))
    {message : Option String} (reported : Reported ending message) (more : Nat) :
    converse fuel (more + 1) s = converse fuel more (left.reporting message) := by
  have shown : put "> " s = .ok () (s.onConsole (·.put "> ")) := rfl
  have taken : takeLine (s.onConsole (·.put "> ")) = .ok (some line) (s.asked rest) :=
    takeLine_of_cons unread
  rw [converse, run_bind_of_ok shown, run_bind_of_ok taken]
  exact run_bind_of_ok (answerLine_reporting ran reported)

/-- With too little fuel for a line the prompt ends for lack of fuel. -/
private theorem converse_of_stopped
    (stopped : run fuel (lineSource line) (s.asked rest) = .error (.stopped .outOfFuel) left)
    (more : Nat) : converse fuel (more + 1) s = .error (.stopped .outOfFuel) left := by
  have shown : put "> " s = .ok () (s.onConsole (·.put "> ")) := rfl
  have taken : takeLine (s.onConsole (·.put "> ")) = .ok (some line) (s.asked rest) :=
    takeLine_of_cons unread
  rw [converse, run_bind_of_ok shown, run_bind_of_ok taken]
  exact run_bind_of_error (answerLine_of_error stopped)

end

theorem converse_of_answers {t : Turn} (answers : s.Answers t s') :
    ∃ enough, ∀ fuel ≥ enough, ∀ more, converse fuel (more + 1) s = converse fuel more s' := by
  cases answers with
  | @intro rest ending left unread runs read printed reported =>
    obtain ⟨enough, settled⟩ := runs
    exact ⟨enough, fun fuel isEnough =>
      converse_of_after unread (settled fuel isEnough).1 reported⟩

/-- With any fuel the prompt goes on after a turn, or it ends for lack of fuel. -/
theorem converse_of_answers_or_stopped {t : Turn} (answers : s.Answers t s') (fuel more : Nat) :
    (∃ left, converse fuel (more + 1) s = .error (.stopped .outOfFuel) left) ∨
      converse fuel (more + 1) s = converse fuel more s' := by
  cases answers with
  | @intro rest ending left unread runs read printed reported =>
    obtain ⟨enough, settled⟩ := runs
    rcases prolonged_run (lineSource t.line) (Nat.le_max_left fuel enough) (s.asked rest) with
      ⟨_, left', stopped, rfl⟩ | same
    · exact .inl ⟨left', converse_of_stopped unread stopped more⟩
    · have ran := (settled _ (Nat.le_max_right fuel enough)).1
      rw [Session.after, same] at ran
      exact .inr (converse_of_after unread ran reported more)

/-- Once there are no more lines, the prompt ends. -/
theorem converse_of_ended (ended : s.console.unread = []) (fuel more : Nat) :
    converse fuel (more + 1) s = .ok () s.farewell := by
  have shown : put "> " s = .ok () (s.onConsole (·.put "> ")) := rfl
  have taken : takeLine (s.onConsole (·.put "> ")) = .ok none (s.onConsole (·.put "> ")) :=
    takeLine_of_nil ended
  rw [converse, run_bind_of_ok shown, run_bind_of_ok taken]
  rfl

/-- Turns after which there are no more lines are those of the prompt. -/
theorem converse_of_converses {turns : List Turn} (converses : s.Converses turns s')
    (ended : s'.console.unread = []) :
    ∃ enough, ∀ fuel ≥ enough, ∀ more > turns.length, converse fuel more s = .ok () s'.farewell := by
  induction converses with
  | silent s =>
    refine ⟨0, fun fuel _ more allowed => ?_⟩
    obtain ⟨more, rfl⟩ := Nat.exists_eq_add_of_lt allowed
    exact converse_of_ended ended fuel _
  | @turn s s' left t turns answers _ ih =>
    obtain ⟨enough, onward⟩ := ih ended
    obtain ⟨enough', first⟩ := converse_of_answers answers
    refine ⟨max enough enough', fun fuel isEnough more allowed => ?_⟩
    obtain ⟨more, rfl⟩ := Nat.exists_eq_add_of_lt allowed
    rw [first fuel (Nat.le_trans (Nat.le_max_right _ _) isEnough)]
    refine onward fuel (Nat.le_trans (Nat.le_max_left _ _) isEnough) _ ?_
    rw [List.length_cons]
    omega

/-- After turns that lead to a line whose run never ends, the prompt does not end either. -/
theorem converse_of_never {turns : List Turn} (converses : s.Converses turns s') {line : List Char}
    {rest : List (List Char)} (unread : s'.console.unread = line :: rest) {fuel : Nat}
    (never : ((s'.asked rest).after (run fuel (lineSource line))).1 = .error (.stopped .outOfFuel)) :
    ∀ more > turns.length, ∃ left, converse fuel more s = .error (.stopped .outOfFuel) left := by
  induction converses with
  | silent s =>
    intro more allowed
    obtain ⟨more, rfl⟩ := Nat.exists_eq_add_of_lt allowed
    have stopped := Session.of_after_error (Prod.ext never rfl)
    exact ⟨_, converse_of_stopped unread stopped _⟩
  | turn answers _ ih =>
    intro more allowed
    obtain ⟨more, rfl⟩ := Nat.exists_eq_add_of_lt allowed
    rcases converse_of_answers_or_stopped answers fuel _ with stopped | onward
    · exact stopped
    · rw [onward]
      refine ih unread never _ ?_
      rw [List.length_cons]
      omega

end Acting

/-- A sound session goes over all lines turn by turn, or the run of a line never ends. -/
theorem Session.Sound.converses {s : Session} (sound : s.Sound) :
    (∃ turns s', s.Converses turns s' ∧ s'.console.unread = []) ∨
      ∃ turns s' line rest, s.Converses turns s' ∧ s'.console.unread = line :: rest ∧
        ∀ fuel, ((s'.asked rest).after (Acting.run fuel (lineSource line))).1 =
          .error (.stopped .outOfFuel) := by
  induction left : s.console.unread.length using Nat.strongRecOn generalizing s with
  | _ n ih =>
    cases unread : s.console.unread with
    | nil => exact .inl ⟨[], s, .silent s, unread⟩
    | cons line rest =>
      rcases sound.answers unread with never | ⟨t, s', answers, sound'⟩
      · exact .inr ⟨[], s, line, rest, .silent s, unread, never⟩
      · have fewer : s'.console.unread.length < n := by
          rw [← left, answers.unread, Turn.lines, List.length_append, List.length_cons]
          omega
        rcases ih _ fewer sound' rfl with
          ⟨turns, s'', converses, ended⟩ | ⟨turns, s'', line, rest, converses, more, never⟩
        · exact .inl ⟨t :: turns, s'', .turn answers converses, ended⟩
        · exact .inr ⟨t :: turns, s'', line, rest, .turn answers converses, more, never⟩

/-- The prompt of a session, whatever texts were run in it, goes over the lines of the input turn by
turn, takes each of them once and in order, and writes what the turns write, and `> ` and a newline in
the end. Or it comes to a line whose run never ends, and then it never ends itself. -/
theorem prompt_converses (input : String) (clock : Nat → Float) (debugLevel : Nat)
    (runs : List (Nat × String)) :
    let s := (Session.start (.ofInput input none false clock) debugLevel).afterRuns runs
    (∃ turns s', s.Converses turns s' ∧ turns.flatMap Turn.lines = s.console.unread ∧
      (∃ enough, ∀ fuel ≥ enough, s.after (Acting.prompt fuel) = (.ok (), s'.farewell)) ∧
      s'.farewell.console.unread = [] ∧
      s'.farewell.console.written.toList =
        s.console.written.toList ++ turns.flatMap Turn.texts ++ ["> ", "\n"]) ∨
    ∃ turns s' line rest, s.Converses turns s' ∧ s'.console.unread = line :: rest ∧
      (∀ fuel, ((s'.asked rest).after (Acting.run fuel (lineSource line))).1 =
        .error (.stopped .outOfFuel)) ∧
      ∀ fuel, (s.after (Acting.prompt fuel)).1 = .error (.stopped .outOfFuel) := by
  intro s
  have sound : s.Sound := ⟨_, Session.fits_afterRuns _ debugLevel False.elim⟩
  have allowed {turns : List Turn} {s' : Session} (converses : s.Converses turns s') :
      s.console.unread.length + 1 > turns.length := by
    have fewer := Turn.length_le turns
    rw [converses.unread, List.length_append]
    omega
  rcases sound.converses with
    ⟨turns, s', converses, ended⟩ | ⟨turns, s', line, rest, converses, unread, never⟩
  · obtain ⟨enough, conversing⟩ := Acting.converse_of_converses converses ended
    refine .inl ⟨turns, s', converses, ?_, ⟨enough, fun fuel isEnough => ?_⟩, ended, ?_⟩
    · rw [converses.unread, ended, List.append_nil]
    · have ended : Acting.prompt fuel s = .ok () s'.farewell :=
        conversing fuel isEnough _ (allowed converses)
      rw [Session.after, ended]
    · have farewell : s'.farewell.console.written.toList =
          s'.console.written.toList ++ ["> "] ++ ["\n"] := by
        show ((s'.console.written.push "> ").push "\n").toList = _
        rw [Array.toList_push, Array.toList_push]
      rw [farewell, converses.written]
      simp only [List.append_assoc, List.singleton_append]
  · refine .inr ⟨turns, s', line, rest, converses, unread, never, fun fuel => ?_⟩
    obtain ⟨left, stopped⟩ := Acting.converse_of_never converses unread (never fuel) _
      (allowed converses)
    have stopped : Acting.prompt fuel s = .error (.stopped .outOfFuel) left := stopped
    rw [Session.after, stopped]

/-- The first line takes the second one, and what it gave a value is still there after the third one has
failed. -/
example : ((Session.start (.ofInput "var s = input();\nhi\ns = s + s; t;\nprint(s);" none false
      fun _ => 0) 0).after (Acting.prompt 9)).2.console.written.toList =
    ["> ", "> ", "[line 1] NameError: undefined variable 't'\n", "> ", "hihi\n", "> ", "\n"] := by
  decide +kernel

end Lox
