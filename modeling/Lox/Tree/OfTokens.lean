import Lox.Tree.Cursor

/-!
# Trees of token streams

A statement is told by its first token. An expression is an operand with whatever binds it more
tightly than the place it stands in: `expression above` reads on while the next token binds tighter
than `above`, so that an operator whose right operand is read above its own level groups to the
left. A `for` loop becomes a `while` loop, a declared function a variable with a function literal.

Nodes are numbered in the order in which they are complete, children before parents.
-/

namespace Lox

/-! ## How tightly operators bind -/

namespace Level

/-- The level of a whole expression, below all operators. -/
def none : Nat := 0
def assignment : Nat := 1
def or : Nat := 2
def and : Nat := 3
def equality : Nat := 4
def comparison : Nat := 5
def term : Nat := 6
def factor : Nat := 7
def unary : Nat := 8
def step : Nat := 9
def call : Nat := 10

end Level

/-- What a token makes of the complete operand before it. -/
inductive Joint
  | assignment
  | logical (level : Nat)
  | binary (level : Nat)
  | step
  | call

/-- How tightly a token binds the operand before it. -/
def Joint.level : Joint → Nat
  | assignment => Level.assignment
  | logical level => level
  | binary level => level
  | step => Level.step
  | call => Level.call

/-- The tokens that may follow a complete operand. -/
def Kind.joint? : Kind → Option Joint
  | .equal => some .assignment
  | .orWord => some (.logical Level.or)
  | .andWord => some (.logical Level.and)
  | .equalEqual | .bangEqual => some (.binary Level.equality)
  | .less | .lessEqual | .greater | .greaterEqual => some (.binary Level.comparison)
  | .plus | .minus => some (.binary Level.term)
  | .star | .slash => some (.binary Level.factor)
  | .plusPlus | .minusMinus => some .step
  | .leftParen => some .call
  | _ => none

namespace Reading

/-! ## Parts with given readers of expressions and statements -/

/-- What a token stands for that is an operand by itself. -/
def atom? (t : Token) : Option (Nat → Expr) :=
  match t.kind with
  | .number | .string | .nilWord => some (.literal · t.literal)
  | .trueWord => some (.literal · (.bool true))
  | .falseWord => some (.literal · (.bool false))
  | .identifier => some (.reference · t)
  | _ => none

/-- A function from its parameters on. -/
def function (body : Reading (List Stmt)) (keyword : Token) (name : Option Token) :
    Reading Expr := do
  let _ ← want (if name.isSome then .namedFunctionStart else .functionStart)
  let (params, _) ← listed .tooManyParameters .parametersEnd (want .parameterName)
  let _ ← want .bodyStart
  let statements ← body
  return .lambda (← freshId) keyword params statements name

/-- An operand, from its first token on. -/
def operandOf (expression : Nat → Reading Expr) (body : Reading (List Stmt)) : Reading Expr := do
  let t ← advance
  match atom? t with
  | some node => return node (← freshId)
  | none =>
    match t.kind with
    | .minus | .bang =>
      let right ← expression Level.unary
      return .unary (← freshId) t right
    | .leftParen =>
      let inner ← expression Level.none
      let _ ← want .groupEnd
      return .grouping (← freshId) inner
    | .funWord => function body t none
    | _ => fail .noExpression t

/-- An operand joined with what follows the given token. -/
def join (expression : Nat → Reading Expr) (left : Expr) (t : Token) : Joint → Reading Expr
  | .assignment => do
    let value ← expression Level.none
    match left with
    | .reference _ name => return .assignment (← freshId) name value
    | _ => fail .notAssignable t
  | .logical level => do
    let right ← expression level
    return .logical (← freshId) left t right
  | .binary level => do
    let right ← expression level
    return .binary (← freshId) left t right
  | .step => return .step (← freshId) left t
  | .call => do
    let (arguments, paren) ← listed .tooManyArguments .argumentsEnd (expression Level.none)
    return .call (← freshId) left arguments paren

/-- An expression as a statement. -/
def expressionStatement (expression : Nat → Reading Expr) : Reading Stmt := do
  let e ← expression Level.none
  let _ ← want .expressionEnd
  return .expression e

/-- A variable declaration. -/
def declaration (expression : Nat → Reading Expr) : Reading Stmt := do
  let _ ← advance
  let name ← want .variableName
  let initializer ← if ← accept .equal then some <$> expression Level.none else pure none
  let _ ← want .declarationEnd
  return .declaration name initializer

/-- A declared function; without a name it is an expression. -/
def functionDeclaration (expression : Nat → Reading Expr) (body : Reading (List Stmt)) :
    Reading Stmt := do
  let c ← get
  match c.ahead.tail.head? with
  | some name =>
    if name.kind = .identifier then
      let keyword ← advance
      let name ← advance
      return .declaration name (some (← function body keyword (some name)))
    else expressionStatement expression
  | none => expressionStatement expression

/-- A conditional; an `else` belongs to the nearest one before it. -/
def ifElse (expression : Nat → Reading Expr) (statement : Reading Stmt) : Reading Stmt := do
  let _ ← advance
  let _ ← want .ifStart
  let condition ← expression Level.none
  let _ ← want .ifEnd
  let thenBranch ← statement
  let elseBranch ← if ← accept .elseWord then some <$> statement else pure none
  return .ifElse condition thenBranch elseBranch

/-- A `while` loop. -/
def whileLoop (expression : Nat → Reading Expr) (statement : Reading Stmt) : Reading Stmt := do
  let _ ← advance
  let _ ← want .whileStart
  let condition ← expression Level.none
  let _ ← want .whileEnd
  let body ← statement
  return .whileLoop condition body none

/-- The first clause of a `for` loop. -/
def forInitializer (expression : Nat → Reading Expr) : Reading (Option Stmt) := do
  if ← accept .semicolon then return none
  else if ← check .varWord then return some (← declaration expression)
  else return some (← expressionStatement expression)

/-- A `for` loop; without a condition it goes on for ever. -/
def forLoop (expression : Nat → Reading Expr) (statement : Reading Stmt) : Reading Stmt := do
  let _ ← advance
  let _ ← want .forStart
  let initializer ← forInitializer expression
  let condition ← absentAt .semicolon (expression Level.none)
  let _ ← want .loopConditionEnd
  let increment ← absentAt .rightParen (expression Level.none)
  let _ ← want .forEnd
  let body ← statement
  let condition ← match condition with
    | some e => pure e
    | none => pure (.literal (← freshId) (.bool true))
  let loop := Stmt.whileLoop condition body increment
  return match initializer with
    | some s => .block [s, loop]
    | none => loop

/-- A `return` with a value or without. -/
def returnValue (expression : Nat → Reading Expr) : Reading Stmt := do
  let keyword ← advance
  let value ← absentAt .semicolon (expression Level.none)
  let _ ← want .returnEnd
  return .returnValue keyword value

/-- A statement, told by its first token. -/
def statementOf (expression : Nat → Reading Expr) (statement : Reading Stmt)
    (body : Reading (List Stmt)) : Reading Stmt := do
  match (← peek).kind with
  | .leftBrace =>
    let _ ← advance
    return .block (← body)
  | .varWord => declaration expression
  | .funWord => functionDeclaration expression body
  | .ifWord => ifElse expression statement
  | .whileWord => whileLoop expression statement
  | .forWord => forLoop expression statement
  | .breakWord =>
    let keyword ← advance
    let _ ← want .breakEnd
    return .breakLoop keyword
  | .continueWord =>
    let keyword ← advance
    let _ ← want .continueEnd
    return .continueLoop keyword
  | .returnWord => returnValue expression
  | _ => expressionStatement expression

/-! ## Expressions and statements -/

mutual

/-- An expression that ends before a token which does not bind tighter than the level. -/
def expression : Nat → Nat → Reading Expr
  | 0, _ => do fail .tooDeep (← peek)
  | n + 1, above => do
    let left ← operandOf (expression n) (body n)
    chain n above left

/-- Joins to an operand what binds it more tightly than the level. -/
def chain : Nat → Nat → Expr → Reading Expr
  | 0, _, _ => do fail .tooDeep (← peek)
  | n + 1, above, left => do
    match (← peek).kind.joint? with
    | some joint =>
      if above < joint.level then
        let t ← advance
        chain n above (← join (expression n) left t joint)
      else return left
    | none => return left

/-- A statement. -/
def statement : Nat → Reading Stmt
  | 0 => do fail .tooDeep (← peek)
  | n + 1 => statementOf (expression n) (statement n) (body n)

/-- The statements of a block, its closing brace included. -/
def body : Nat → Reading (List Stmt)
  | 0 => do fail .tooDeep (← peek)
  | n + 1 => do
    let next := (← peek).kind
    if next = .rightBrace ∨ next = .eof then
      let _ ← want .blockEnd
      return []
    else
      let s ← statement n
      return s :: (← body n)

end

/-- The statements up to the end of the tokens. -/
def program (depth : Nat) : Nat → Reading Program
  | 0 => do fail .tooDeep (← peek)
  | n + 1 => do
    if ← check .eof then return []
    else
      let s ← statement depth
      return s :: (← after s (program depth n))

/-- A single expression up to the end of the tokens. -/
def loneExpression (depth : Nat) : Reading Expr := do
  let e ← expression depth Level.none
  if ← check .eof then return e
  else fail .notEnd (← peek)

end Reading

/-! ## Whole streams -/

/-- A depth that no stream of the length exceeds: no reader calls itself more than four levels
down before it has read a token. -/
def Stream.depth (s : Stream) : Nat := 4 * s.tokens.length + 4

/-- The outcome of a reader, and the number of the next node. -/
def Stream.read {α : Type} (reading : Reading α) (s : Stream) (nextId : Nat) :
    Except SyntaxError α × Nat :=
  match reading.run ⟨s.tokens, s.stop, nextId⟩ with
  | .ok x c => (.ok x, c.nextId)
  | .error e c => (.error e, c.nextId)

/-- The program that a stream is, with nodes numbered from the given number on. -/
def Stream.program (s : Stream) (nextId : Nat) : Except SyntaxError Program × Nat :=
  s.read (Reading.program s.depth s.depth) nextId

/-- The expression that a stream is, with nodes numbered from the given number on. -/
def Stream.expression (s : Stream) (nextId : Nat) : Except SyntaxError Expr × Nat :=
  s.read (Reading.loneExpression s.depth) nextId

end Lox
