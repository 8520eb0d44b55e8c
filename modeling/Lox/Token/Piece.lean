import Lox.Number.Numeral
import Lox.Token.Basic

/-!
# Cutting a text into pieces

A program text is cut from left to right into tokens, blanks, comments and the two kinds of
defects. Each piece is as long as its kind allows. Main statement: the pieces of a text, joined,
are the text.
-/

namespace Lox

open Lox.Text (isLetter isDigit)

/-- What a piece of program text is. -/
inductive Shape
  | token (kind : Kind) (literal : Literal)
  | blank
  | comment
  /-- A character that starts nothing else. -/
  | stray (c : Char)
  /-- A string without its closing quote, up to the end of the text. -/
  | openString

/-- A piece of program text. -/
structure Piece where
  shape : Shape
  text : List Char

/-! ## Classes of characters -/

/-- The characters that are a token each. -/
def single? (c : Char) : Option Kind :=
  match c with
  | '(' => some .leftParen
  | ')' => some .rightParen
  | '{' => some .leftBrace
  | '}' => some .rightBrace
  | ',' => some .comma
  | '.' => some .dot
  | ';' => some .semicolon
  | '*' => some .star
  | _ => none

/-- A token of one character which another character extends to a token of two. -/
structure Extensible where
  alone : Kind
  next : Char
  extended : Kind

/-- The characters that are a token alone and start a longer one. -/
def extensible? (c : Char) : Option Extensible :=
  match c with
  | '!' => some ⟨.bang, '=', .bangEqual⟩
  | '=' => some ⟨.equal, '=', .equalEqual⟩
  | '<' => some ⟨.less, '=', .lessEqual⟩
  | '>' => some ⟨.greater, '=', .greaterEqual⟩
  | '+' => some ⟨.plus, '+', .plusPlus⟩
  | '-' => some ⟨.minus, '-', .minusMinus⟩
  | _ => none

/-- A character between tokens. -/
def isBlank (c : Char) : Bool := c == ' ' || c == '\t' || c == '\r' || c == '\n'

/-- A character that starts a word. -/
def startsWord (c : Char) : Bool := isLetter c || c == '_'

/-- A character inside a word. -/
def continuesWord (c : Char) : Bool := startsWord c || isDigit c

/-! ## Pieces of more than one character -/

/-- A word, with its first character given. -/
def wordPiece (c : Char) (rest : List Char) : Piece :=
  let text := c :: rest.takeWhile continuesWord
  ⟨.token (.ofWord (String.ofList text)) .nil, text⟩

/-- The digits after a point, if there are any. -/
def fraction : List Char → List Char
  | '.' :: rest => rest.takeWhile isDigit
  | _ => []

/-- A number, with its first digit given: digits, and a point with digits after it. -/
def numberPiece (c : Char) (rest : List Char) : Piece :=
  let whole := c :: rest.takeWhile isDigit
  let part := fraction (rest.dropWhile isDigit)
  ⟨.token .number (.num (Number.numeral whole part)),
    whole ++ if part = [] then [] else '.' :: part⟩

/-- A string, with the text after its first quote given. -/
def stringPiece (rest : List Char) : Piece :=
  let body := rest.takeWhile (· != '"')
  match rest.dropWhile (· != '"') with
  | [] => ⟨.openString, '"' :: body⟩
  | quote :: _ => ⟨.token .string (.str (String.ofList body)), '"' :: body ++ [quote]⟩

/-- A comment or a slash, with the text after its first slash given. -/
def slashPiece (rest : List Char) : Piece :=
  match rest with
  | '/' :: _ => ⟨.comment, '/' :: rest.takeWhile (· != '\n')⟩
  | _ => ⟨.token .slash .nil, ['/']⟩

/-- The first piece of a text, with the first character apart. -/
def firstPiece (c : Char) (rest : List Char) : Piece :=
  match single? c with
  | some kind => ⟨.token kind .nil, [c]⟩
  | none =>
    match extensible? c with
    | some e =>
      if rest.head? = some e.next then ⟨.token e.extended .nil, [c, e.next]⟩
      else ⟨.token e.alone .nil, [c]⟩
    | none =>
      if c = '/' then slashPiece rest
      else if isBlank c then ⟨.blank, [c]⟩
      else if c = '"' then stringPiece rest
      else if isDigit c then numberPiece c rest
      else if startsWord c then wordPiece c rest
      else ⟨.stray c, [c]⟩

/-! ## A piece is the start of the text and is not empty -/

private theorem takeWhile_isPrefixOf (p : Char → Bool) (cs : List Char) : cs.takeWhile p <+: cs :=
  List.takeWhile_prefix p

private theorem wordPiece_isPrefix (c : Char) (rest : List Char) :
    (wordPiece c rest).text <+: c :: rest := by
  simpa [wordPiece] using takeWhile_isPrefixOf _ _

private theorem fraction_isPrefix (rest : List Char) (h : fraction rest ≠ []) :
    '.' :: fraction rest <+: rest := by
  unfold fraction at h ⊢
  split
  · simpa using takeWhile_isPrefixOf _ _
  · simp at h

private theorem numberPiece_isPrefix (c : Char) (rest : List Char) :
    (numberPiece c rest).text <+: c :: rest := by
  have split := List.takeWhile_append_dropWhile (p := isDigit) (l := rest)
  simp only [numberPiece, List.cons_append, List.cons_prefix_cons, true_and]
  split
  · simpa using takeWhile_isPrefixOf _ _
  · rename_i part
    conv => rhs; rw [← split]
    exact (List.prefix_append_right_inj _).2 (fraction_isPrefix _ part)

private theorem stringPiece_isPrefix (rest : List Char) :
    (stringPiece rest).text <+: '"' :: rest := by
  have split := List.takeWhile_append_dropWhile (p := (· != '"')) (l := rest)
  unfold stringPiece
  cases found : rest.dropWhile (· != '"') with
  | nil => simpa using takeWhile_isPrefixOf _ _
  | cons quote tail =>
    simp only [List.cons_append, List.cons_prefix_cons, true_and]
    conv => rhs; rw [← split, found]
    simp

private theorem slashPiece_isPrefix (rest : List Char) :
    (slashPiece rest).text <+: '/' :: rest := by
  unfold slashPiece
  split
  · simpa using takeWhile_isPrefixOf _ _
  · simp

theorem firstPiece_isPrefix (c : Char) (rest : List Char) :
    (firstPiece c rest).text <+: c :: rest := by
  unfold firstPiece
  split
  · simp
  · split
    · split
      · next e _ h => cases rest <;> simp_all
      · simp
    · split
      · next h => subst h; exact slashPiece_isPrefix rest
      · split
        · simp
        · split
          · next h => subst h; exact stringPiece_isPrefix rest
          · split
            · exact numberPiece_isPrefix c rest
            · split
              · exact wordPiece_isPrefix c rest
              · simp

theorem firstPiece_length_pos (c : Char) (rest : List Char) :
    0 < (firstPiece c rest).text.length := by
  unfold firstPiece slashPiece stringPiece numberPiece wordPiece
  grind

/-! ## All pieces -/

/-- The pieces of a text in order. -/
def pieces : List Char → List Piece
  | [] => []
  | c :: rest =>
    let piece := firstPiece c rest
    piece :: pieces ((c :: rest).drop piece.text.length)
termination_by text => text.length
decreasing_by
  have := firstPiece_length_pos c rest
  simp only [List.length_drop, List.length_cons]
  omega

theorem flatten_pieces (text : List Char) : ((pieces text).map (·.text)).flatten = text := by
  induction text using pieces.induct with
  | case1 => simp [pieces]
  | case2 c rest piece ih =>
    rw [pieces, List.map_cons, List.flatten_cons]
    exact (congrArg (_ ++ ·) ih).trans (List.prefix_iff_eq_append.1 (firstPiece_isPrefix c rest))

end Lox
