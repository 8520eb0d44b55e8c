import Lox.Tree.Basic

/-!
# Values

The values that programs compute with, their truth, equality, and text.
-/

namespace Lox

/-- A frame of variables, by its place in the store. -/
abbrev Ref := Nat

/-- The frames that are visible from a place: the innermost one, and those around it outwards. -/
structure Env where
  frame : Ref
  outer : List Ref
  deriving DecidableEq, Inhabited

/-- The frames of an environment, innermost first. -/
def Env.chain (e : Env) : List Ref := e.frame :: e.outer

/-- The number of frames around the innermost one. -/
def Env.depth (e : Env) : Nat := e.outer.length

/-- The frame of the global variables is the first one of every store. -/
def Env.global : Env := ⟨0, []⟩

/-- The functions that every program finds among its global variables. -/
inductive Native
  | clock | print | input
  deriving DecidableEq, Inhabited

/-- The name of a native function. -/
def Native.name : Native → String
  | clock => "clock"
  | print => "print"
  | input => "input"

/-- The number of arguments of a native function, if it is fixed. -/
def Native.arity? : Native → Option Nat
  | clock | input => some 0
  | print => none

/-- A function literal together with the environment that it was evaluated in. -/
structure Closure where
  /-- Tells the closure from all others, those of the same literal included. -/
  identity : Nat
  keyword : Token
  params : List Token
  body : List Stmt
  declaredName : Option Token
  env : Env

/-- The name of a function, or a word for one without. -/
def Closure.name (c : Closure) : String := (c.declaredName.map (·.lexeme)).getD "lambda"

/-- The number of arguments of a function. -/
def Closure.arity (c : Closure) : Nat := c.params.length

/-- A value. -/
inductive Value
  | nil
  | bool (value : Bool)
  | num (value : Float)
  | str (value : String)
  | closure (c : Closure)
  | native (n : Native)

instance : Inhabited Value := ⟨.nil⟩

namespace Value

/-- The value that a literal stands for. -/
def ofLiteral : Literal → Value
  | .nil => nil
  | .bool b => bool b
  | .num x => num x
  | .str s => str s

/-- The values that literals of trees put together by hand hold, by the numbers of the literals. They may
be functions, in any environments and with any bodies. A literal without one stands for what is
written. -/
abbrev Held := Nat → Option Value

/-- The value of a literal. -/
def Held.value (held : Held) (id : Nat) (literal : Literal) : Value :=
  (held id).getD (ofLiteral literal)

/-- Everything is true but `nil` and `false`. -/
def truthy : Value → Bool
  | nil => false
  | bool b => b
  | _ => true

/-- A value equals one of its own kind: by content, and a function by identity. -/
def equal : Value → Value → Bool
  | nil, nil => true
  | bool a, bool b => a == b
  | num a, num b => a == b
  | str a, str b => a == b
  | closure a, closure b => a.identity == b.identity
  | native a, native b => a == b
  | _, _ => false

/-- Whether a value is a number. -/
def isNumber : Value → Bool
  | num _ => true
  | _ => false

/-- The name of the kind of a value. -/
def typeName : Value → String
  | nil => "nil"
  | bool _ => "boolean"
  | num _ => "number"
  | str _ => "string"
  | closure _ | native _ => "function"

/-- What printing a value shows. -/
def text : Value → String
  | nil => "nil"
  | bool b => if b then "true" else "false"
  | num x => String.ofList (Number.plain.text x)
  | str s => s
  | closure c => "<fn " ++ c.name ++ ">"
  | native n => "<native fn " ++ n.name ++ ">"

/-- A value as its kind can be told from its text. -/
def quoted : Value → String
  | nil => Literal.nil.quoted
  | bool b => (Literal.bool b).quoted
  | num x => (Literal.num x).quoted
  | str s => (Literal.str s).quoted
  | v => v.text

end Value

end Lox
