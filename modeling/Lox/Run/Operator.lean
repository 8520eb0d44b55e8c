import Lox.Run.Error

/-!
# Operators

What the operators make of values. Arithmetic and order are those of IEEE 754 doubles. A divisor of
zero is told apart: the quotient is infinite or not a number.
-/

namespace Lox

/-- A number with the magnitude of one number and the sign of another. -/
def Number.copySign (x y : Float) : Float :=
  if 0x8000000000000000 ≤ y.toBits then -x.abs else x.abs

/-- The number above all others. -/
def Number.infinity : Float := Float.ofBits 0x7ff0000000000000

/-- What is not a number. -/
def Number.nan : Float := Float.ofBits 0x7ff8000000000000

/-- The quotient of two numbers. -/
def Number.divide (x y : Float) : Float :=
  if y == 0.0 then
    if x == 0.0 || x != x then nan else copySign infinity x * copySign 1.0 y
  else x / y

/-- What an operator makes of an operand. -/
def Value.unary (operator : Token) (right : Value) : Except RuntimeError.Cause Value :=
  match operator.kind, right with
  | .minus, .num x => .ok (.num (-x))
  | .minus, _ => .error .numberOperand
  | .bang, v => .ok (.bool !v.truthy)
  | _, _ => .error (.unknownUnary operator.lexeme)

/-- What an operator makes of two numbers. -/
def Value.arithmetic (operator : Token) (x y : Float) : Except RuntimeError.Cause Value :=
  match operator.kind with
  | .minus => .ok (.num (x - y))
  | .star => .ok (.num (x * y))
  | .slash => .ok (.num (Number.divide x y))
  | .greater => .ok (.bool (decide (y < x)))
  | .greaterEqual => .ok (.bool (decide (y ≤ x)))
  | .less => .ok (.bool (decide (x < y)))
  | .lessEqual => .ok (.bool (decide (x ≤ y)))
  | _ => .error (.unknownBinary operator.lexeme)

/-- The sum of two numbers or the join of two strings. -/
def Value.add : Value → Value → Except RuntimeError.Cause Value
  | .num x, .num y => .ok (.num (x + y))
  | .str s, .str t => .ok (.str (s ++ t))
  | _, _ => .error .summands

/-- What an operator makes of two operands. -/
def Value.binary (operator : Token) (left right : Value) : Except RuntimeError.Cause Value :=
  match operator.kind with
  | .plus => left.add right
  | .equalEqual => .ok (.bool (left.equal right))
  | .bangEqual => .ok (.bool !(left.equal right))
  | _ =>
    match left, right with
    | .num x, .num y => Value.arithmetic operator x y
    | _, _ => .error .numberOperands

/-- The left operand of a logical operator, if it settles the result. -/
def Value.settles (operator : Token) (left : Value) : Bool :=
  if operator.kind = .orWord then left.truthy else !left.truthy

/-- The number after another one or before it. -/
def Value.step (operator : Token) : Value → Except RuntimeError.Cause Value
  | .num x => .ok (.num (x + if operator.kind = .plusPlus then 1.0 else -1.0))
  | _ => .error (.steppedNumber operator.lexeme)

end Lox
