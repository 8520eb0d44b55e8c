import Lox.Scope.Basic

/-!
# How far names are from their declarations

A walk over a program keeps the scopes around the place it has reached, with the names declared in
them so far, and notes for every use of a name in one of them how many scopes lie between. A name in
no scope is global.

The walk refuses a program that reads a variable in its own initializer, leaves a loop where there
is none, or returns from no function.
-/

namespace Lox

/-! ## The walk -/

/-- The place that a walk has reached. -/
structure Survey where
  /-- The scopes around the place, innermost first. -/
  scopes : List Scope
  /-- The loops around the place in the same function. -/
  loopDepth : Nat
  /-- The functions around the place. -/
  functionDepth : Nat
  /-- The uses noted so far. -/
  uses : Array Use

/-- The place outside of all scopes. -/
def Survey.start : Survey := ⟨[], 0, 0, #[]⟩

/-- A walk keeps what it has noted when it ends early. -/
abbrev Resolving := EStateM Refusal Survey

/-- Declares a name in the innermost scope; outside of all scopes nothing is kept. -/
def Survey.mark (name : Token) (readiness : Readiness) (s : Survey) : Survey :=
  match s.scopes with
  | [] => s
  | scope :: outer => { s with scopes := scope.insert name.lexeme readiness :: outer }

namespace Resolving

/-- Declares a name in the innermost scope. -/
def mark (name : Token) (readiness : Readiness) : Resolving Unit :=
  modify (·.mark name readiness)

/-- Walks a part with the place changed, and changes the place back however the walk ends. -/
def within (enter leave : Survey → Survey) (walk : Resolving Unit) : Resolving Unit := fun s =>
  match walk (enter s) with
  | .ok u s => .ok u (leave s)
  | .error e s => .error e (leave s)

/-- Walks a part in a scope of its own. -/
def inScope (walk : Resolving Unit) : Resolving Unit :=
  within (fun s => { s with scopes := ∅ :: s.scopes }) (fun s => { s with scopes := s.scopes.tail })
    walk

/-- Walks the body of a loop. -/
def inLoop (walk : Resolving Unit) : Resolving Unit :=
  within (fun s => { s with loopDepth := s.loopDepth + 1 })
    (fun s => { s with loopDepth := s.loopDepth - 1 }) walk

/-- Walks a function; the loops around it are not around its body. -/
def inFunction (walk : Resolving Unit) : Resolving Unit := do
  let around := (← get).loopDepth
  within (fun s => { s with loopDepth := 0, functionDepth := s.functionDepth + 1 })
    (fun s => { s with loopDepth := around, functionDepth := s.functionDepth - 1 })
    (inScope walk)

/-- Notes the use of a name that is declared in a scope around it. -/
def note (id : Nat) (form : UseForm) (name : Token) : Resolving Unit := do
  match findName name.lexeme (← get).scopes with
  | some (distance, _) => modify fun s => { s with uses := s.uses.push ⟨id, form, name, distance⟩ }
  | none => return

/-- Refuses a variable that is still without its value. -/
def checkReady (name : Token) : Resolving Unit := do
  match findName name.lexeme (← get).scopes with
  | some (_, .pending) => throw (.error ⟨.ownInitializer name.lexeme, name.line⟩)
  | _ => return

/-- Refuses to leave a loop where there is none. -/
def checkLoop (keyword : Token) : Resolving Unit := do
  if (← get).loopDepth = 0 then throw (.error ⟨.noLoop keyword.lexeme, keyword.line⟩)

/-- Refuses to return where there is no function. -/
def checkFunction (keyword : Token) : Resolving Unit := do
  if (← get).functionDepth = 0 then throw (.error ⟨.noFunction, keyword.line⟩)

end Resolving

open Resolving

mutual

/-- Walks an expression. -/
def Expr.resolve : Expr → Resolving Unit
  | .literal .. => pure ()
  | .grouping _ inner => inner.resolve
  | .unary _ _ right => right.resolve
  | .binary _ left _ right => do left.resolve; right.resolve
  | .logical _ left _ right => do left.resolve; right.resolve
  | .step _ left _ => left.resolve
  | .reference id name => do checkReady name; note id .reference name
  | .assignment id name value => do value.resolve; note id .assignment name
  | .call _ callee arguments _ => do callee.resolve; Expr.resolveAll arguments
  | .lambda _ _ params body _ => inFunction do
    params.forM (mark · .ready)
    Stmt.resolveAll body
  | .misplaced kind => throw (.misplaced kind)

/-- Walks expressions in order. -/
def Expr.resolveAll : List Expr → Resolving Unit
  | [] => pure ()
  | e :: rest => do e.resolve; Expr.resolveAll rest

/-- Walks an expression that may be absent. -/
def Expr.resolveOption : Option Expr → Resolving Unit
  | none => pure ()
  | some e => e.resolve

/-- Walks a statement. A declared function may use its own name. -/
def Stmt.resolve : Stmt → Resolving Unit
  | .expression e => e.resolve
  | .declaration name none => mark name .ready
  | .declaration name (some e) => do
    mark name (if e.isLambda then .ready else .pending)
    e.resolve
    mark name .ready
  | .block statements => inScope (Stmt.resolveAll statements)
  | .ifElse condition thenBranch elseBranch => do
    condition.resolve
    thenBranch.resolve
    Stmt.resolveOption elseBranch
  | .whileLoop condition body increment => do
    condition.resolve
    inLoop body.resolve
    Expr.resolveOption increment
  | .breakLoop keyword => checkLoop keyword
  | .continueLoop keyword => checkLoop keyword
  | .returnValue keyword value => do
    checkFunction keyword
    Expr.resolveOption value
  | .misplaced kind => throw (.misplaced kind)

/-- Walks statements in order. -/
def Stmt.resolveAll : List Stmt → Resolving Unit
  | [] => pure ()
  | s :: rest => do s.resolve; Stmt.resolveAll rest

/-- Walks a statement that may be absent. -/
def Stmt.resolveOption : Option Stmt → Resolving Unit
  | none => pure ()
  | some s => s.resolve

end

/-! ## Whole programs -/

/-- What a walk has noted, and how it ended. -/
structure Resolution where
  uses : List Use
  outcome : Except Refusal Unit

/-- Walks from a place outside of all scopes. -/
def Resolving.resolution (walk : Resolving Unit) : Resolution :=
  match walk.run .start with
  | .ok _ s => ⟨s.uses.toList, .ok ()⟩
  | .error e s => ⟨s.uses.toList, .error e⟩

/-- Where the names of a program are declared. -/
def Program.resolution (p : Program) : Resolution := (Stmt.resolveAll p).resolution

/-- Where the names of an expression outside of all scopes are declared. -/
def Expr.resolution (e : Expr) : Resolution := e.resolve.resolution

/-- The distances of the uses of names in scopes, by the numbers of their nodes. -/
abbrev Distances := Std.TreeMap Nat Nat

/-- Adds the distance of a use. -/
def Distances.insertUse (d : Distances) (u : Use) : Distances := d.insert u.id u.distance

/-- Adds the distances of uses in order. -/
def Distances.insertUses (d : Distances) (us : List Use) : Distances := us.foldl .insertUse d

end Lox
