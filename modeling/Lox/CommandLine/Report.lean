import Lox.CommandLine.Directory
import Lox.CommandLine.Options
import Lox.Prompt
import Lox.Text.Utf8

/-!
# Commands

What a command line does: it runs a script or a prompt. At a debug level above zero it also keeps
the debug output in a file, which it opens before all else.
-/

namespace Lox.CommandLine

/-- How a command ends. -/
inductive Ending
  | exit (code : Nat)
  /-- The file for debug output cannot be opened. -/
  | debugFile (name : String) (e : OpenError)
  /-- The script is no text. -/
  | undecodable (d : Text.Utf8.Defect)
  /-- The script ran longer than it was allowed to. -/
  | outOfFuel
  deriving DecidableEq

/-- A script failed. -/
def Ending.failed : Ending := .exit 65

/-- A script could not be read. -/
def Ending.unreadable : Ending := .exit 66

/-- What a command leaves behind. -/
structure Report where
  ending : Ending
  output : String
  errors : String
  debug : String

/-- A command that ends before it does anything. -/
def Report.empty (ending : Ending) : Report := ⟨ending, "", "", ""⟩

/-- A report on what has been done in a session. -/
def Report.ofSession (ending : Ending) (errors : String) (s : Session) : Report :=
  ⟨ending, s.machine.console.output, errors, s.machine.trace.output⟩

/-- A command whose file for debug output cannot be opened. -/
def Report.noDebugFile (name : String) (e : OpenError) : Report := .empty (.debugFile name e)

/-- The debug level of a command: the environment can ask for the first one. -/
def Options.debugLevel (o : Options) (log : Option String) : Nat :=
  if log.map String.toLower = some "debug" then max o.verbosity 1 else o.verbosity

/-- Runs a program text. -/
def runText (fuel : Nat) (s : Session) (source : String) : Report :=
  match s.after (Acting.run fuel source) with
  | (.ok _, s) => .ofSession (.exit 0) "" s
  | (.error failure, s) =>
    match failure.message? with
    | some text => .ofSession .failed (text ++ "\n") s
    | none => .ofSession .outOfFuel "" s

/-- Runs the bytes of a script. -/
def runBytes (fuel : Nat) (s : Session) (bytes : List UInt8) : Report :=
  match Text.Utf8.decode bytes with
  | .ok text => runText fuel s (String.ofList (Text.unifyLineEnds text))
  | .error d => .empty (.undecodable d)

/-- Runs the script of a name, or tells why it cannot be read. -/
def runScript (fuel : Nat) (s : Session) (name : String) (script : Except OpenError (List UInt8)) :
    Report :=
  match script with
  | .ok bytes => runBytes fuel s bytes
  | .error e =>
    { Report.empty .unreadable with errors := "Error: cannot read " ++ name ++ ": " ++ e.text ++ "\n" }

/-- Answers the lines of the input. -/
def runPrompt (fuel : Nat) (s : Session) : Report :=
  match s.after (Acting.prompt fuel) with
  | (.ok _, s) => .ofSession (.exit 0) "" s
  | (.error _, s) => .ofSession .outOfFuel "" s

/-- Does what the options say; a script is read by its name. -/
def Options.perform (o : Options) (fuel : Nat) (s : Session)
    (read : String → Except OpenError (List UInt8)) : Report :=
  match o.script with
  | some name => runScript fuel s name (read name)
  | none => runPrompt fuel s

/-! ## Commands in a directory -/

/-- What a command is given. -/
structure Command where
  arguments : List String
  directory : Directory
  input : String
  /-- The value of the environment variable `LOG`. -/
  log : Option String
  clock : Nat → Float

/-- Does what the options say without debug output. -/
def Command.perform (c : Command) (o : Options) (fuel : Nat) : Report × Directory :=
  let s := Session.start (.ofInput c.input none false c.clock) 0
  (o.perform fuel s c.directory.read, c.directory)

/-- Does what the options say with debug output in a file, which is empty at first. -/
def Command.performTraced (c : Command) (o : Options) (level fuel : Nat) : Report × Directory :=
  match c.directory.writable o.debugFile with
  | .error e => (.noDebugFile o.debugFile e, c.directory)
  | .ok path =>
    let s := Session.start (.ofInput c.input none false c.clock) level
    let report := o.perform fuel s (c.directory.insert path []).read
    (report, c.directory.insert path report.debug.toUTF8.toList)

/-- Carries a command out: what it leaves behind, and the directory afterwards. -/
def Command.run (c : Command) (fuel : Nat) : Report × Directory :=
  match Options.ofArguments c.arguments with
  | .error .help => (.empty (.exit 0), c.directory)
  | .error .usage => (.empty (.exit 2), c.directory)
  | .ok o =>
    match o.debugLevel c.log with
    | 0 => c.perform o fuel
    | level + 1 => c.performTraced o (level + 1) fuel

end Lox.CommandLine
