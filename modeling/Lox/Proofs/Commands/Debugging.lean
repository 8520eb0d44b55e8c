import Lox.CommandLine.Report
import Lox.Proofs.Commands.Files
import Lox.Proofs.Safety.Outcomes
import Lox.Proofs.Traces.Levels

/-!
# Scripts with debug output

Debug output is kept in a file which is made empty before the script is read. Main statements: a
script whose name has nothing to do with that file runs with debug output as without, and no other
file changes; a name that leads to the file is read only after the file was made empty, and so a
script that is not there is found, and one that is there is lost.
-/

namespace Lox

/-- A text that is run first in a session ends in the same way at all levels of debugging. -/
theorem Session.first_run_at_level (console : Console) (level fuel : Nat) (source : String) :
    ((start console level).after (Acting.run fuel source)).1 =
        ((start console 0).after (Acting.run fuel source)).1 ∧
      ((start console 0).after (Acting.run fuel source)).2.SameButNotes
        ((start console level).after (Acting.run fuel source)).2 := by
  have atLevel (level : Nat) :=
    (Acting.sifted_run (fun _ => rfl) fuel source).after (sifted_start console level)
  obtain ⟨same, sifted⟩ := atLevel level
  obtain ⟨sameAtNone, siftedAtNone⟩ := atLevel 0
  exact ⟨same.trans sameAtNone.symm, siftedAtNone.sameButNotes.trans_symm sifted.sameButNotes⟩

namespace CommandLine

/-! ## Reports on a script -/

/-- The second report differs from the first one in the debug output alone. -/
def Report.SameButDebug (report report' : Report) : Prop :=
  ∃ debug, report' = { report with debug }

theorem Report.SameButDebug.refl (report : Report) : report.SameButDebug report :=
  ⟨report.debug, rfl⟩

theorem Report.SameButDebug.ending {report report' : Report} (same : report.SameButDebug report') :
    report'.ending = report.ending := by
  obtain ⟨debug, rfl⟩ := same
  rfl

theorem Report.sameButDebug_ofSession {s s' : Session} (same : s.SameButNotes s') (ending : Ending)
    (errors : String) : (ofSession ending errors s).SameButDebug (ofSession ending errors s') := by
  obtain ⟨trace, rfl⟩ := same
  exact ⟨trace.output, rfl⟩

section
variable (console : Console) (level fuel : Nat)

theorem runText_sameButDebug (source : String) :
    (runText fuel (.start console 0) source).SameButDebug
      (runText fuel (.start console level) source) := by
  obtain ⟨sameEnding, sameSession⟩ := Session.first_run_at_level console level fuel source
  unfold runText
  revert sameEnding sameSession
  generalize (Session.start console level).after (Acting.run fuel source) = ran
  generalize (Session.start console 0).after (Acting.run fuel source) = silent
  obtain ⟨ending, s⟩ := ran
  obtain ⟨ending', s'⟩ := silent
  rintro rfl same
  cases ending with
  | ok count => exact Report.sameButDebug_ofSession same _ _
  | error failure =>
    dsimp only
    split
    · exact Report.sameButDebug_ofSession same _ _
    · exact Report.sameButDebug_ofSession same _ _

/-- What is run of a script does not depend on debugging. -/
theorem runScript_sameButDebug (name : String) (script : Except OpenError (List UInt8)) :
    (runScript fuel (.start console 0) name script).SameButDebug
      (runScript fuel (.start console level) name script) := by
  cases script with
  | error e => exact .refl _
  | ok bytes =>
    show (runBytes _ _ bytes).SameButDebug (runBytes _ _ bytes)
    unfold runBytes
    split
    · exact runText_sameButDebug console level fuel _
    · exact .refl _

end

/-- A text ends well, or with an error of the program, unless the fuel runs out. -/
theorem runText_ending (console : Console) (fuel : Nat) (source : String) :
    let report := runText fuel (.start console 0) source
    report.ending = .exit 0 ∨ report.ending = .failed ∨
      ((Session.start console 0).after (Acting.run fuel source)).1 =
        .error (.stopped .outOfFuel) := by
  have ends : EndsWell _ False (Acting.run fuel source (.start console 0)) :=
    endsWell_run (.start console 0) False.elim fuel
  unfold runText
  rcases ran : (Session.start console 0).after (Acting.run fuel source) with ⟨failure | count, s⟩
  · by_cases out : failure = .stopped .outOfFuel
    · exact .inr (.inr (congrArg Except.error out))
    · obtain ⟨text, isText⟩ : ∃ text, failure.message? = some text := by
        cases (ends.expected ran).ofProgram out with
        | lexical | grammar | resolution | running => exact ⟨_, rfl⟩
      refine .inr (.inl ?_)
      simp only [isText]
      rfl
  · exact .inl rfl

/-- How a command ends that is given these bytes under the name of its script: the script ends well, or
with an error of the program, unless the fuel runs out; it is no text; or it cannot be read. -/
def Ending.OfScript (ending : Ending) (console : Console) (fuel : Nat) :
    Except OpenError (List UInt8) → Prop
  | .error _ => ending = .unreadable
  | .ok bytes =>
    match Text.Utf8.decode bytes with
    | .error d => ending = .undecodable d
    | .ok text => ending = .exit 0 ∨ ending = .failed ∨
      ((Session.start console 0).after
        (Acting.run fuel (String.ofList (Text.unifyLineEnds text)))).1 = .error (.stopped .outOfFuel)

theorem runScript_ending (console : Console) (fuel : Nat) (name : String)
    (script : Except OpenError (List UInt8)) :
    (runScript fuel (.start console 0) name script).ending.OfScript console fuel script := by
  cases script with
  | error e => exact rfl
  | ok bytes =>
    unfold runScript runBytes Ending.OfScript
    dsimp only
    cases Text.Utf8.decode bytes with
    | ok text => exact runText_ending console fuel _
    | error d => rfl

/-! ## Commands -/

/-- Whatever options a command gives for debug output, and whatever the environment asks for, its
script runs as without them, if its name has nothing to do with the file for debug output: all that the
command leaves behind is the same but the debug output, no file changes but the one for it, and none at
all without it. -/
theorem Command.run_debugged {c : Command} {plain : List String} {o o' : Options} {name : String}
    {path : Path} (isOptions : Options.ofArguments c.arguments = .ok o)
    (isScript : o.script = some name) (isPlain : Options.ofArguments plain = .ok o')
    (sameScript : o'.script = some name) (isSilent : o'.verbosity = 0)
    (opened : o.debugLevel c.log ≠ 0 →
      c.directory.writable o.debugFile = .ok path ∧ c.directory.Avoids name path) (fuel : Nat) :
    let ran := c.run fuel
    let silent := Command.run { c with arguments := plain, log := none } fuel
    silent.1.SameButDebug ran.1 ∧
      ran.1.ending.OfScript (.ofInput c.input none false c.clock) fuel (c.directory.read name) ∧
      silent.2 = c.directory ∧ (o.debugLevel c.log = 0 → ran.2 = c.directory) ∧
      ran.2.folders = c.directory.folders ∧
      (∀ place, place ≠ path → ran.2.file? place = c.directory.file? place) ∧
      ran.2.read name = c.directory.read name := by
  intro ran silent
  let console : Console := .ofInput c.input none false c.clock
  have level' : o'.debugLevel none = 0 := isSilent
  have isSilentRun : silent =
      (runScript fuel (.start console 0) name (c.directory.read name), c.directory) := by
    simp only [silent, run, isPlain, level', perform, Options.perform, sameScript, console]
  cases isLevel : o.debugLevel c.log with
  | zero =>
    have same : ran = silent := by
      rw [isSilentRun]
      simp only [ran, run, isOptions, isLevel, perform, Options.perform, isScript, console]
    rw [same, isSilentRun]
    exact ⟨.refl _, runScript_ending console fuel name _, rfl, fun _ => rfl, rfl, fun _ _ => rfl, rfl⟩
  | succ level =>
    obtain ⟨isWritable, avoids⟩ := opened (isLevel ▸ Nat.succ_ne_zero level)
    have takes := Directory.takes_of_writable isWritable
    let report := runScript fuel (.start console (level + 1)) name (c.directory.read name)
    have isRun : ran = (report, c.directory.insert path report.debug.toUTF8.toList) := by
      simp only [ran, run, isOptions, isLevel, performTraced, isWritable, Options.perform, isScript,
        avoids.read_insert takes, report, console]
    have same := runScript_sameButDebug console (level + 1) fuel name (c.directory.read name)
    rw [isRun, isSilentRun]
    refine ⟨same, ?_, rfl, nofun, rfl, ?_, ?_⟩
    · rw [same.ending]
      exact runScript_ending console fuel name _
    · exact fun place different => Directory.file?_insert_of_ne _ different
    · exact avoids.read_insert takes

/-- A script in the same folder as the file for debug output. -/
theorem Command.script_beside_debug_file :
    let bytes := "print(1);".toUTF8.toList
    let c : Command :=
      ⟨["-vv", "--debug-file=notes", "script"], ⟨[(["script"], bytes)], []⟩, "", some "DEBUG",
        fun _ => 0⟩
    let silent := Command.run { c with arguments := ["script"], log := none } 10
    Options.ofArguments c.arguments = .ok ⟨2, "notes", some "script"⟩ ∧
      c.directory.writable "notes" = .ok ["notes"] ∧ c.directory.Avoids "script" ["notes"] ∧
      silent.1.SameButDebug (c.run 10).1 ∧ silent.1.output = "1\n" := by
  intro bytes c silent
  have isOptions : Options.ofArguments c.arguments = .ok ⟨2, "notes", some "script"⟩ := by
    decide +kernel
  have isWritable : c.directory.writable "notes" = .ok ["notes"] := by decide +kernel
  have leads : c.directory.place "script" = .ok (.file ["script"] bytes) := by
    decide +kernel
  have avoids : c.directory.Avoids "script" ["notes"] := by
    refine ⟨fun content isNotes => ?_, fun _ front isFront isNotes => ?_⟩
    · rw [leads] at isNotes
      simp at isNotes
    · have names : Directory.names "script" = ["script"] := by decide +kernel
      rw [names, List.prefix_cons_iff] at isFront
      obtain rfl | ⟨rest, rfl, isRest⟩ := isFront
      · cases isNotes
      · obtain rfl := List.prefix_nil.1 isRest
        cases isNotes
  have isPlain : Options.ofArguments ["script"] = .ok ⟨0, "debug.txt", some "script"⟩ := by
    decide +kernel
  have ran := Command.run_debugged isOptions rfl isPlain rfl rfl (fun _ => ⟨isWritable, avoids⟩) 10
  exact ⟨isOptions, isWritable, avoids, ran.1, by decide +kernel⟩

/-- The file for debug output can be written, and is found as a script that is not there. -/
theorem Command.script_is_debug_file :
    let c : Command := ⟨["-v", "debug.txt"], ⟨[], []⟩, "", none, fun _ => 0⟩
    let silent := Command.run { c with arguments := ["debug.txt"] } 10
    Options.ofArguments c.arguments = .ok ⟨1, "debug.txt", some "debug.txt"⟩ ∧
      Options.ofArguments ["debug.txt"] = .ok ⟨0, "debug.txt", some "debug.txt"⟩ ∧
      c.directory.writable "debug.txt" = .ok ["debug.txt"] ∧
      (c.run 10).1.ending = .exit 0 ∧ (c.run 10).1.errors = "" ∧
      silent.1.ending = .exit 66 ∧
      silent.1.errors = "Error: cannot read debug.txt: No such file or directory\n" := by
  decide +kernel

-- A script that is there is lost: nothing of it is run.
example :
    let bytes := "print(1);".toUTF8.toList
    let c : Command := ⟨["-v", "debug.txt"], ⟨[(["debug.txt"], bytes)], []⟩, "", none, fun _ => 0⟩
    (c.run 10).1.output = "" ∧ (c.run 10).2.files = [(["debug.txt"], "tokens: EOF\n".toUTF8.toList)] := by
  decide +kernel

end CommandLine

end Lox
