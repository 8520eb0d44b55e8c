import Lox.Message
import Lox.Text.Lines
import Lox.Token.Piece

/-!
# The tokens and the defects of a text

Tokens and defects are read off the pieces of a text, with a count of lines that each newline puts
up. A token has the line of its last character, a defect that of its first, and the mark of the end
the line that the count has come to. Main statement: this is one more than the newlines of the text.
-/

namespace Lox

/-- What is wrong at one place of a text. -/
inductive Defect.Cause
  | strayCharacter (c : Char)
  | unterminatedString

/-- A place of a text that starts no token. -/
structure Defect where
  cause : Defect.Cause
  line : Int

/-- The wording of a defect. -/
def Defect.text (d : Defect) : String :=
  match d.cause with
  | .strayCharacter c => "unexpected character " ++ Text.quoted (String.singleton c)
  | .unterminatedString => "unterminated string"

/-- The message of a defect. -/
def Defect.message (d : Defect) : String := Lox.message "LexError" (some d.line) d.text

/-- The message of all defects of a text, each on a line of its own. -/
def defectsMessage (ds : List Defect) : String := "\n".intercalate (ds.map (·.message))

/-- The line after a character, given the line of the character. -/
def lineAfterChar (line : Nat) (c : Char) : Nat := if c = '\n' then line + 1 else line

/-- The line on which a piece ends, given the line on which it starts. -/
def Piece.lineAfter (line : Nat) (p : Piece) : Nat := p.text.foldl lineAfterChar line

/-- The token that a piece is. -/
def Piece.token? (line : Nat) (p : Piece) : Option Token :=
  match p.shape with
  | .token kind literal => some ⟨kind, String.ofList p.text, literal, (p.lineAfter line : Nat)⟩
  | _ => none

/-- The defect that a piece is. -/
def Piece.defect? (line : Nat) (p : Piece) : Option Defect :=
  match p.shape with
  | .stray c => some ⟨.strayCharacter c, line⟩
  | .openString => some ⟨.unterminatedString, line⟩
  | _ => none

/-- The tokens among pieces that start on the given line. -/
def tokensOf (line : Nat) : List Piece → List Token
  | [] => []
  | p :: rest => (p.token? line).toList ++ tokensOf (p.lineAfter line) rest

/-- The defects among pieces that start on the given line. -/
def defectsOf (line : Nat) : List Piece → List Defect
  | [] => []
  | p :: rest => (p.defect? line).toList ++ defectsOf (p.lineAfter line) rest

/-- The line on which pieces end, given the line on which they start. -/
def lineAfterAll (line : Nat) : List Piece → Nat
  | [] => line
  | p :: rest => lineAfterAll (p.lineAfter line) rest

theorem tokensOf_append (line : Nat) (ps qs : List Piece) :
    tokensOf line (ps ++ qs) = tokensOf line ps ++ tokensOf (lineAfterAll line ps) qs := by
  induction ps generalizing line with
  | nil => rfl
  | cons p ps ih =>
    rw [List.cons_append, tokensOf, ih, tokensOf, List.append_assoc]
    rfl

theorem defectsOf_append (line : Nat) (ps qs : List Piece) :
    defectsOf line (ps ++ qs) = defectsOf line ps ++ defectsOf (lineAfterAll line ps) qs := by
  induction ps generalizing line with
  | nil => rfl
  | cons p ps ih =>
    rw [List.cons_append, defectsOf, ih, defectsOf, List.append_assoc]
    rfl

/-! ## The count is that of the newlines -/

theorem foldl_lineAfterChar (line : Nat) (text : List Char) :
    text.foldl lineAfterChar line = line + Text.newlines text := by
  induction text generalizing line with
  | nil => rfl
  | cons c rest ih =>
    rw [List.foldl_cons, ih, lineAfterChar, Text.newlines, Text.newlines, List.count_cons]
    simp only [beq_iff_eq]
    split <;> omega

theorem Piece.lineAfter_eq (line : Nat) (p : Piece) :
    p.lineAfter line = line + Text.newlines p.text := foldl_lineAfterChar line p.text

theorem lineAfterAll_eq (line : Nat) (ps : List Piece) :
    lineAfterAll line ps = line + Text.newlines (ps.map (·.text)).flatten := by
  induction ps generalizing line with
  | nil => rfl
  | cons p rest ih =>
    rw [lineAfterAll, ih, Piece.lineAfter_eq, List.map_cons, List.flatten_cons, Text.newlines_append,
      Nat.add_assoc]

/-- The pieces of a text end on the line after all of its newlines. -/
theorem lineAfterAll_pieces (text : List Char) :
    lineAfterAll 1 (pieces text) = 1 + Text.newlines text := by
  rw [lineAfterAll_eq, flatten_pieces]

/-! ## Scans -/

/-- The mark of the end, on the last line. -/
def endMark (line : Nat) : Token := ⟨.eof, "", .nil, line⟩

/-- What scanning a text finds. -/
structure Scan where
  stream : Stream
  defects : List Defect

/-- The tokens and the defects of a text. -/
def scan (text : List Char) : Scan :=
  let ps := pieces text
  ⟨⟨tokensOf 1 ps, endMark (lineAfterAll 1 ps)⟩, defectsOf 1 ps⟩

theorem scan_stop (text : List Char) : (scan text).stream.stop = endMark (1 + Text.newlines text) :=
  congrArg endMark (lineAfterAll_pieces text)

/-- The tokens of a text without defects. -/
def tokenize (text : List Char) : Except (List Defect) Stream :=
  let found := scan text
  if found.defects.isEmpty then .ok found.stream else .error found.defects

end Lox
