import Lox.Number.Layout
import Lox.Text.Quoted

/-!
# Tokens

A token is a piece of program text with its kind, the value it is written for, and its line.
-/

namespace Lox

/-- A value that a token or a tree holds. -/
inductive Literal
  | nil
  | bool (value : Bool)
  | num (value : Float)
  | str (value : String)
  deriving Inhabited

/-- What a token is. -/
inductive Kind
  | leftParen | rightParen | leftBrace | rightBrace | comma | dot | minus | plus | semicolon
  | slash | star
  | bang | bangEqual | equal | equalEqual | greater | greaterEqual | less | lessEqual
  | plusPlus | minusMinus
  | identifier | string | number
  | andWord | breakWord | classWord | continueWord | elseWord | falseWord | forWord | funWord
  | ifWord | nilWord | orWord | returnWord | superWord | thisWord | trueWord | varWord | whileWord
  | eof
  deriving DecidableEq, Inhabited

/-- All kinds with their names, in the order of their declaration. -/
def Kind.names : List (Kind × String) := [
  (.leftParen, "LEFT_PAREN"), (.rightParen, "RIGHT_PAREN"), (.leftBrace, "LEFT_BRACE"),
  (.rightBrace, "RIGHT_BRACE"), (.comma, "COMMA"), (.dot, "DOT"), (.minus, "MINUS"),
  (.plus, "PLUS"), (.semicolon, "SEMICOLON"), (.slash, "SLASH"), (.star, "STAR"),
  (.bang, "BANG"), (.bangEqual, "BANG_EQUAL"), (.equal, "EQUAL"), (.equalEqual, "EQUAL_EQUAL"),
  (.greater, "GREATER"), (.greaterEqual, "GREATER_EQUAL"), (.less, "LESS"),
  (.lessEqual, "LESS_EQUAL"), (.plusPlus, "PLUS_PLUS"), (.minusMinus, "MINUS_MINUS"),
  (.identifier, "IDENTIFIER"), (.string, "STRING"), (.number, "NUMBER"),
  (.andWord, "AND"), (.breakWord, "BREAK"), (.classWord, "CLASS"), (.continueWord, "CONTINUE"),
  (.elseWord, "ELSE"), (.falseWord, "FALSE"), (.forWord, "FOR"), (.funWord, "FUN"),
  (.ifWord, "IF"), (.nilWord, "NIL"), (.orWord, "OR"), (.returnWord, "RETURN"),
  (.superWord, "SUPER"), (.thisWord, "THIS"), (.trueWord, "TRUE"), (.varWord, "VAR"),
  (.whileWord, "WHILE"), (.eof, "EOF")]

/-- The name of a kind. -/
def Kind.name (k : Kind) : String := (names.lookup k).getD ""

/-- The kind of the given name. -/
def Kind.ofName? (name : String) : Option Kind :=
  (names.find? (·.2 == name)).map (·.1)

theorem Kind.ofName?_name (k : Kind) : ofName? k.name = some k := by
  cases k <;> decide +kernel

/-- The words that are not identifiers. -/
def Kind.words : List (String × Kind) := [
  ("and", .andWord), ("break", .breakWord), ("class", .classWord), ("continue", .continueWord),
  ("else", .elseWord), ("false", .falseWord), ("for", .forWord), ("fun", .funWord),
  ("if", .ifWord), ("nil", .nilWord), ("or", .orWord), ("return", .returnWord),
  ("super", .superWord), ("this", .thisWord), ("true", .trueWord), ("var", .varWord),
  ("while", .whileWord)]

/-- The kind of a word. -/
def Kind.ofWord (word : String) : Kind := (words.lookup word).getD .identifier

/-- A piece of program text. -/
structure Token where
  kind : Kind
  lexeme : String
  literal : Literal
  line : Int
  deriving Inhabited

/-- A value as its kind can be told from its text; `nil` is what a token without a value holds. -/
def Literal.quoted : Literal → String
  | .nil => "None"
  | .bool true => "True"
  | .bool false => "False"
  | .num x => String.ofList (Number.marked.text x)
  | .str s => Text.quoted s

/-- A token as the debug output shows it: an identifier by its name, any other by its value. -/
def Token.text (t : Token) : String :=
  if t.kind = .identifier then t.kind.name ++ " " ++ t.lexeme
  else match t.literal with
    | .nil => t.kind.name
    | value => t.kind.name ++ " " ++ value.quoted

/-- Tokens up to the end of a text. -/
structure Stream where
  tokens : List Token
  /-- The token that marks the end. -/
  stop : Token

/-- All tokens of a stream, with its end. -/
def Stream.toList (s : Stream) : List Token := s.tokens ++ [s.stop]

/-- The stream that ends at the first mark of the end; a list must have such a mark as its last. -/
def Stream.ofList? (ts : List Token) : Option Stream :=
  match ts.getLast?, ts.find? (·.kind == .eof) with
  | some last, some stop =>
    if last.kind = .eof then some ⟨ts.takeWhile (·.kind != .eof), stop⟩ else none
  | _, _ => none

theorem Stream.ofList?_append {ts : List Token} {stop last : Token} (rest : List Token)
    (before : ∀ t ∈ ts, t.kind ≠ .eof) (hstop : stop.kind = .eof)
    (hlast : (stop :: rest).getLast? = some last) (hend : last.kind = .eof) :
    Stream.ofList? (ts ++ stop :: rest) = some ⟨ts, stop⟩ := by
  have isLast : (ts ++ stop :: rest).getLast? = some last := by
    rw [List.getLast?_append, hlast, Option.some_or]
  have isStop : (ts ++ stop :: rest).find? (·.kind == .eof) = some stop := by
    rw [List.find?_append, List.find?_eq_none.2 (by simpa using before)]
    simp [hstop]
  have isBefore : (ts ++ stop :: rest).takeWhile (·.kind != .eof) = ts := by
    rw [List.takeWhile_append_of_pos (by simpa using before)]
    simp [hstop]
  simp only [Stream.ofList?, isLast, isStop, hend, if_true, isBefore]

end Lox
