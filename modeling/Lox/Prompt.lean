import Lox.Session

/-!
# The prompt

Every line of the input that no program reads is a program text of its own. Messages of failures
stand among the output.
-/

namespace Lox.Acting

/-- Writes a text that no limit counts. -/
def put (text : String) : Acting Unit :=
  modify fun s => { s with machine := { s.machine with console := s.machine.console.put text } }

/-- Takes the next line off the input. -/
def takeLine : Acting (Option (List Char)) := do
  match (← get).machine.console.unread with
  | [] => return none
  | line :: rest =>
    modify fun s =>
      { s with machine := { s.machine with console := { s.machine.console with unread := rest } } }
    return some line

/-- Runs a line, and writes the message if it fails. -/
def answerLine (fuel : Nat) (line : List Char) : Acting Unit := do
  try
    let _ ← run fuel (String.ofList (Text.trimLineEnd line))
  catch failure =>
    match failure.message? with
    | some text => put (text ++ "\n")
    | none => throw failure

/-- Takes and answers at most the given number of lines. -/
def converse (fuel : Nat) : Nat → Acting Unit
  | 0 => return
  | more + 1 => do
    put "> "
    match ← takeLine with
    | none => put "\n"
    | some line =>
      answerLine fuel line
      converse fuel more

/-- Answers lines until there are none; every turn but the last takes at least one. -/
def prompt (fuel : Nat) : Acting Unit := do
  converse fuel ((← get).machine.console.unread.length + 1)

end Lox.Acting
