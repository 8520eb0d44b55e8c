import Lox.CommandLine.Report

/-!
# The program

Reads the command line, the environment, the script and the input, and leaves all else to
`Lox.CommandLine`.
-/

namespace Lox

open CommandLine

/-- Enough for any run that ends within a lifetime. -/
def fuel : Nat := 1000000000000000

/-- A clock that starts at a time, with readings a microsecond apart. -/
def clockFrom (milliseconds reading : Nat) : Float :=
  (1000 * milliseconds + reading).toFloat / 1000000.0

/-- Why a file could not be opened. -/
def openError : IO.Error → OpenError
  | .inappropriateType _ 20 _ => .notFolder
  | .inappropriateType .. => .isFolder
  | _ => .notFound

/-- The bytes of a file. -/
def readFile (name : String) : IO (Except OpenError (List UInt8)) := do
  try
    return .ok (← IO.FS.readBinFile name).toList
  catch e => return .error (openError e)

/-- Makes a file empty. -/
def clearFile (name : String) : IO (Except OpenError Unit) := do
  try
    IO.FS.writeFile name ""
    return .ok ()
  catch e => return .error (openError e)

/-- Does what the options say. -/
def performOptions (o : Options) (level : Nat) : IO Report := do
  if level ≠ 0 then
    if let .error e ← clearFile o.debugFile then return .noDebugFile o.debugFile e
  let script ← match o.script with
    | some name => readFile name
    | none => pure (.error .notFound)
  let input ← (← IO.getStdin).readToEnd
  let s := Session.start (.ofInput input none false (clockFrom (← IO.monoMsNow))) level
  let report := o.perform fuel s fun _ => script
  if level ≠ 0 then IO.FS.writeFile o.debugFile report.debug
  return report

/-- The exit code of an ending, with the message of one that has none of its own. -/
def exitCode : Ending → String × Nat
  | .exit code => ("", code)
  | .debugFile name e => ("cannot write " ++ name ++ ": " ++ e.text ++ "\n", 1)
  | .undecodable d => (d.message ++ "\n", 1)
  | .outOfFuel => ("", 1)

/-- How the program is called. -/
def usage : String := "usage: lox [-h] [-v] [--debug-file PATH] [script]\n"

end Lox

/-- Runs the command line. -/
def main (arguments : List String) : IO UInt32 := do
  match Lox.CommandLine.Options.ofArguments arguments with
  | .error .help =>
    IO.print Lox.usage
    return 0
  | .error .usage =>
    IO.eprint Lox.usage
    return 2
  | .ok o =>
    let report ← Lox.performOptions o (o.debugLevel (← IO.getEnv "LOG"))
    IO.print report.output
    IO.eprint report.errors
    let (text, code) := Lox.exitCode report.ending
    IO.eprint text
    return code.toUInt32
