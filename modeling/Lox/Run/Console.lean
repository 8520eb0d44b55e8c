import Lox.Text.Lines

/-!
# What a program reads and writes

A console holds the lines that are still to be read, the texts written so far, and the readings
that a clock will give.
-/

namespace Lox

/-- The world outside of a program. -/
structure Console where
  /-- The lines not read so far, each with its newline. -/
  unread : List (List Char)
  /-- Every attempt to read fails. -/
  readFails : Bool
  written : Array String
  /-- How many more texts can be written, if not any number. -/
  writesLeft : Option Nat
  /-- The readings of the clock, in order. -/
  clock : Nat → Float
  /-- How often the clock has been read. -/
  readings : Nat

/-- A console with a text to be read and nothing written. -/
def Console.ofInput (input : String) (writesLeft : Option Nat) (readFails : Bool)
    (clock : Nat → Float) : Console :=
  ⟨Text.lines input.toList, readFails, #[], writesLeft, clock, 0⟩

/-- Everything that was written. -/
def Console.output (c : Console) : String := String.join c.written.toList

/-- Writes a text that no limit counts. -/
def Console.put (c : Console) (text : String) : Console :=
  { c with written := c.written.push text }

/-- Whether another text can be written. -/
def Console.writable (c : Console) : Bool := c.writesLeft != some 0

/-- Writes a text that counts against the limit. -/
def Console.write (c : Console) (text : String) : Console :=
  { c with written := c.written.push text, writesLeft := c.writesLeft.map (· - 1) }

end Lox
