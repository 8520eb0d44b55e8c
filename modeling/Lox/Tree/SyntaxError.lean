import Lox.Message
import Lox.Tree.Basic

/-!
# Syntax errors

What a token list lacks where it stops being a program.
-/

namespace Lox

/-- A token that the grammar asks for at one place, and nothing else in its stead. -/
inductive Wanted
  | groupEnd | argumentsEnd
  | expressionEnd | variableName | declarationEnd
  | ifStart | ifEnd | whileStart | whileEnd | forStart | loopConditionEnd | forEnd
  | breakEnd | continueEnd | returnEnd
  | functionStart | namedFunctionStart | parameterName | parametersEnd | bodyStart | blockEnd
  deriving DecidableEq

/-- The kind of a wanted token. -/
def Wanted.kind : Wanted → Kind
  | groupEnd | argumentsEnd | ifEnd | whileEnd | forEnd | parametersEnd => .rightParen
  | expressionEnd | declarationEnd | loopConditionEnd | breakEnd | continueEnd | returnEnd =>
    .semicolon
  | variableName | parameterName => .identifier
  | ifStart | whileStart | forStart | functionStart | namedFunctionStart => .leftParen
  | bodyStart => .leftBrace
  | blockEnd => .rightBrace

/-- What is wanted, and where. -/
def Wanted.text : Wanted → String
  | groupEnd => "')' after expression"
  | argumentsEnd => "')' after arguments"
  | expressionEnd => "';' after expression"
  | variableName => "variable name"
  | declarationEnd => "';' after variable declaration"
  | ifStart => "'(' after 'if'"
  | ifEnd => "')' after if condition"
  | whileStart => "'(' after 'while'"
  | whileEnd => "')' after while condition"
  | forStart => "'(' after 'for'"
  | loopConditionEnd => "';' after loop condition"
  | forEnd => "')' after for clauses"
  | breakEnd => "';' after 'break'"
  | continueEnd => "';' after 'continue'"
  | returnEnd => "';' after return value"
  | functionStart => "'(' after 'fun'"
  | namedFunctionStart => "'(' after function name"
  | parameterName => "parameter name"
  | parametersEnd => "')' after parameters"
  | bodyStart => "'\x7b' before function body"
  | blockEnd => "'\x7d' after block"

/-- Why tokens are not a program. -/
inductive SyntaxError.Cause
  | missing (wanted : Wanted)
  | noExpression
  | notEnd
  | notAssignable
  | tooManyArguments
  | tooManyParameters
  /-- The reader gave up; its limit grows with the token list, so that it never does. -/
  | tooDeep

/-- The greatest number of arguments of a call and of parameters of a function. -/
def maxArguments : Nat := 255

/-- The wording of a cause. -/
def SyntaxError.Cause.text : SyntaxError.Cause → String
  | missing wanted => "expected " ++ wanted.text
  | noExpression => "expected expression"
  | notEnd => "expected end of expression"
  | notAssignable => "left hand side of assignment must be a variable"
  | tooManyArguments => "can't have more than " ++ toString maxArguments ++ " arguments"
  | tooManyParameters => "can't have more than " ++ toString maxArguments ++ " parameters"
  | tooDeep => "nested too deeply"

/-- Where and why tokens are not a program. -/
structure SyntaxError where
  cause : SyntaxError.Cause
  found : Token
  /-- The statements before the one with the error. -/
  before : Program

/-- The text of a syntax error: the token it was found at, and the cause. -/
def SyntaxError.text (e : SyntaxError) : String :=
  (if e.found.kind = .eof then "at end" else "at '" ++ e.found.lexeme ++ "'") ++ ": " ++ e.cause.text

/-- The message of a syntax error. -/
def SyntaxError.message (e : SyntaxError) : String :=
  Lox.message "ParseError" (some e.found.line) e.text

end Lox
