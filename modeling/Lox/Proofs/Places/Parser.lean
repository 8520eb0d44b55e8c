import Lox.Tree.OfTokens

/-!
# Parsers with a place in a list of tokens

A parser keeps all of its tokens and the place of the next one. It looks tokens up by their places,
does not go on from a mark of the end, and looks one place further on where a function may have a
name. It notes all places at which it looks, so that one can tell afterwards which these were.
-/

namespace Lox

/-- A list of tokens with a place in it, the number of the next node, and the places looked at. -/
structure Parser where
  tokens : List Token
  position : Nat
  nextId : Nat
  looked : List Nat

/-- A parser keeps its place when it fails. -/
abbrev Parsing := EStateM SyntaxError Parser

namespace Parsing

/-! ## Single tokens -/

/-- The token at a place. A look beyond the list would be noted like any other. -/
def look (place : Nat) : Parsing Token := do
  let p ← get
  set { p with looked := place :: p.looked }
  return p.tokens.getD place default

/-- The next token. -/
def peek : Parsing Token := do look (← get).position

/-- The token after the next one, or the last one of the list. -/
def peekNext : Parsing Token := do
  let p ← get
  look (min (p.position + 1) (p.tokens.length - 1))

/-- The next token; the place is behind it, unless it is a mark of the end. -/
def advance : Parsing Token := do
  let t ← peek
  if t.kind ≠ .eof then
    modify fun p => { p with position := p.position + 1 }
  return t

/-- Fails at a token. -/
def fail {α : Type} (cause : SyntaxError.Cause) (found : Token) : Parsing α :=
  throw ⟨cause, found, []⟩

/-- Whether the next token is of the given kind. -/
def check (kind : Kind) : Parsing Bool := return (← peek).kind = kind

/-- Takes the next token if it is of the given kind. -/
def accept (kind : Kind) : Parsing Bool := do
  if ← check kind then
    let _ ← advance
    return true
  else return false

/-- Takes the wanted token. -/
def want (wanted : Wanted) : Parsing Token := do
  if ← check wanted.kind then advance else fail (.missing wanted) (← peek)

/-- A number for a node that has just been completed. -/
def freshId : Parsing Nat := do
  let p ← get
  set { p with nextId := p.nextId + 1 }
  return p.nextId

/-- Items with commas between them, up to a number of items. -/
def commaSeparated {α : Type} (tooMany : SyntaxError.Cause) (item : Parsing α) :
    Nat → Parsing (List α)
  | 0 => do fail tooMany (← peek)
  | more + 1 => do
    let x ← item
    if ← accept .comma then
      return x :: (← commaSeparated tooMany item more)
    else return [x]

/-- Items between commas up to a closing parenthesis. -/
def listed {α : Type} (tooMany : SyntaxError.Cause) (closing : Wanted) (item : Parsing α) :
    Parsing (List α × Token) := do
  let items ← if ← check closing.kind then pure [] else commaSeparated tooMany item maxArguments
  return (items, ← want closing)

/-- An item, which is absent before a token of the given kind. -/
def absentAt {α : Type} (kind : Kind) (item : Parsing α) : Parsing (Option α) := do
  if ← check kind then return none else return some (← item)

/-- Adds a statement to those that stand before an error. -/
def after {α : Type} (s : Stmt) (parsing : Parsing α) : Parsing α :=
  parsing.adaptExcept fun e => { e with before := s :: e.before }

/-! ## Parts with given parsers of expressions and statements -/

/-- The statements between two braces. It is called where the first brace is known to be. -/
def block (body : Parsing (List Stmt)) : Parsing (List Stmt) := do
  let _ ← want .bodyStart
  body

/-- A function from its parameters on. -/
def function (body : Parsing (List Stmt)) (keyword : Token) (name : Option Token) :
    Parsing Expr := do
  let _ ← want (if name.isSome then .namedFunctionStart else .functionStart)
  let (params, _) ← listed .tooManyParameters .parametersEnd (want .parameterName)
  let statements ← block body
  return .lambda (← freshId) keyword params statements name

/-- An operand, from its first token on. -/
def operandOf (expression : Nat → Parsing Expr) (body : Parsing (List Stmt)) : Parsing Expr := do
  let t ← advance
  match Reading.atom? t with
  | some node => return node (← freshId)
  | none =>
    match t.kind with
    | .minus | .bang =>
      let right ← expression Level.unary
      return .unary (← freshId) t right
    | .leftParen =>
      let inner ← expression Level.none
      let _ ← want .groupEnd
      return .grouping (← freshId) inner
    | .funWord => function body t none
    | _ => fail .noExpression t

/-- An operand joined with what follows the given token. -/
def join (expression : Nat → Parsing Expr) (left : Expr) (t : Token) : Joint → Parsing Expr
  | .assignment => do
    let value ← expression Level.none
    match left with
    | .reference _ name => return .assignment (← freshId) name value
    | _ => fail .notAssignable t
  | .logical level => do
    let right ← expression level
    return .logical (← freshId) left t right
  | .binary level => do
    let right ← expression level
    return .binary (← freshId) left t right
  | .step => return .step (← freshId) left t
  | .call => do
    let (arguments, paren) ← listed .tooManyArguments .argumentsEnd (expression Level.none)
    return .call (← freshId) left arguments paren

/-- An expression as a statement. -/
def expressionStatement (expression : Nat → Parsing Expr) : Parsing Stmt := do
  let e ← expression Level.none
  let _ ← want .expressionEnd
  return .expression e

/-- A variable declaration. -/
def declaration (expression : Nat → Parsing Expr) : Parsing Stmt := do
  let _ ← advance
  let name ← want .variableName
  let initializer ← if ← accept .equal then some <$> expression Level.none else pure none
  let _ ← want .declarationEnd
  return .declaration name initializer

/-- A declared function; without a name it is an expression. -/
def functionDeclaration (expression : Nat → Parsing Expr) (body : Parsing (List Stmt)) :
    Parsing Stmt := do
  if (← peekNext).kind = .identifier then
    let keyword ← advance
    let name ← advance
    return .declaration name (some (← function body keyword (some name)))
  else expressionStatement expression

/-- A conditional; an `else` belongs to the nearest one before it. -/
def ifElse (expression : Nat → Parsing Expr) (statement : Parsing Stmt) : Parsing Stmt := do
  let _ ← advance
  let _ ← want .ifStart
  let condition ← expression Level.none
  let _ ← want .ifEnd
  let thenBranch ← statement
  let elseBranch ← if ← accept .elseWord then some <$> statement else pure none
  return .ifElse condition thenBranch elseBranch

/-- A `while` loop. -/
def whileLoop (expression : Nat → Parsing Expr) (statement : Parsing Stmt) : Parsing Stmt := do
  let _ ← advance
  let _ ← want .whileStart
  let condition ← expression Level.none
  let _ ← want .whileEnd
  let body ← statement
  return .whileLoop condition body none

/-- The first clause of a `for` loop. -/
def forInitializer (expression : Nat → Parsing Expr) : Parsing (Option Stmt) := do
  if ← accept .semicolon then return none
  else if ← check .varWord then return some (← declaration expression)
  else return some (← expressionStatement expression)

/-- A `for` loop; without a condition it goes on for ever. -/
def forLoop (expression : Nat → Parsing Expr) (statement : Parsing Stmt) : Parsing Stmt := do
  let _ ← advance
  let _ ← want .forStart
  let initializer ← forInitializer expression
  let condition ← absentAt .semicolon (expression Level.none)
  let _ ← want .loopConditionEnd
  let increment ← absentAt .rightParen (expression Level.none)
  let _ ← want .forEnd
  let body ← statement
  let condition ← match condition with
    | some e => pure e
    | none => pure (.literal (← freshId) (.bool true))
  let loop := Stmt.whileLoop condition body increment
  return match initializer with
    | some s => .block [s, loop]
    | none => loop

/-- A `return` with a value or without. -/
def returnValue (expression : Nat → Parsing Expr) : Parsing Stmt := do
  let keyword ← advance
  let value ← absentAt .semicolon (expression Level.none)
  let _ ← want .returnEnd
  return .returnValue keyword value

/-- A statement, told by its first token. -/
def statementOf (expression : Nat → Parsing Expr) (statement : Parsing Stmt)
    (body : Parsing (List Stmt)) : Parsing Stmt := do
  match (← peek).kind with
  | .leftBrace => return .block (← block body)
  | .varWord => declaration expression
  | .funWord => functionDeclaration expression body
  | .ifWord => ifElse expression statement
  | .whileWord => whileLoop expression statement
  | .forWord => forLoop expression statement
  | .breakWord =>
    let keyword ← advance
    let _ ← want .breakEnd
    return .breakLoop keyword
  | .continueWord =>
    let keyword ← advance
    let _ ← want .continueEnd
    return .continueLoop keyword
  | .returnWord => returnValue expression
  | _ => expressionStatement expression

/-! ## Expressions and statements -/

mutual

/-- An expression that ends before a token which does not bind tighter than the level. -/
def expression : Nat → Nat → Parsing Expr
  | 0, _ => do fail .tooDeep (← peek)
  | n + 1, above => do
    let left ← operandOf (expression n) (body n)
    chain n above left

/-- Joins to an operand what binds it more tightly than the level. -/
def chain : Nat → Nat → Expr → Parsing Expr
  | 0, _, _ => do fail .tooDeep (← peek)
  | n + 1, above, left => do
    match (← peek).kind.joint? with
    | some joint =>
      if above < joint.level then
        let t ← advance
        chain n above (← join (expression n) left t joint)
      else return left
    | none => return left

/-- A statement. -/
def statement : Nat → Parsing Stmt
  | 0 => do fail .tooDeep (← peek)
  | n + 1 => statementOf (expression n) (statement n) (body n)

/-- The statements of a block, its closing brace included. -/
def body : Nat → Parsing (List Stmt)
  | 0 => do fail .tooDeep (← peek)
  | n + 1 => do
    let next := (← peek).kind
    if next = .rightBrace ∨ next = .eof then
      let _ ← want .blockEnd
      return []
    else
      let s ← statement n
      return s :: (← body n)

end

/-- The statements up to the end of the tokens. -/
def program (depth : Nat) : Nat → Parsing Program
  | 0 => do fail .tooDeep (← peek)
  | n + 1 => do
    if ← check .eof then return []
    else
      let s ← statement depth
      return s :: (← after s (program depth n))

/-- A single expression up to the end of the tokens. -/
def loneExpression (depth : Nat) : Parsing Expr := do
  let e ← expression depth Level.none
  if ← check .eof then return e
  else fail .notEnd (← peek)

end Parsing

end Lox
