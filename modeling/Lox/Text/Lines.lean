/-!
# Lines

A line of text ends at a newline and holds it; the last line may lack one. Main statement: the
lines of a text, joined, are the text again.
-/

namespace Lox.Text

/-- The newlines in a text. -/
def newlines (text : List Char) : Nat := text.count '\n'

theorem newlines_append (a b : List Char) : newlines (a ++ b) = newlines a + newlines b :=
  List.count_append

/-- Puts a character in front of the lines that follow it. -/
def consLine (c : Char) (lines : List (List Char)) : List (List Char) :=
  if c = '\n' then ['\n'] :: lines
  else match lines with
    | [] => [[c]]
    | line :: rest => (c :: line) :: rest

/-- The lines of a text, each with its newline. -/
def lines (text : List Char) : List (List Char) := text.foldr consLine []

theorem flatten_consLine (c : Char) (ls : List (List Char)) :
    (consLine c ls).flatten = c :: ls.flatten := by
  unfold consLine
  split
  · next h => simp [h]
  · cases ls <;> simp

theorem flatten_lines (text : List Char) : (lines text).flatten = text := by
  induction text with
  | nil => rfl
  | cons c rest ih => rw [lines, List.foldr_cons, flatten_consLine]; exact congrArg (c :: ·) ih

/-- A carriage return or a newline. -/
def isLineEnd (c : Char) : Bool := c == '\n' || c == '\r'

/-- A line without any carriage returns and newlines at its end. -/
def trimLineEnd (line : List Char) : List Char := (line.reverse.dropWhile isLineEnd).reverse

/-- A carriage return, alone or before a newline, becomes a newline. -/
def unifyLineEnds : List Char → List Char
  | [] => []
  | '\r' :: '\n' :: rest => '\n' :: unifyLineEnds rest
  | c :: rest => (if c = '\r' then '\n' else c) :: unifyLineEnds rest

end Lox.Text
