import Lox.Text.Letter

/-!
# Reading numbers

A numeral stands for the double nearest to it; one beyond the largest double stands for infinity.
-/

namespace Lox.Number

open Lox.Text (isDigit)

/-- The number that decimal digits stand for. -/
def ofDigits (digits : List Char) : Nat :=
  digits.foldl (fun n c => 10 * n + (c.toNat - '0'.toNat)) 0

/-- The number written by digits before and after a point. -/
def numeral (whole fraction : List Char) : Float :=
  Float.ofScientific (ofDigits (whole ++ fraction)) true fraction.length

/-- The double nearest to `digits * 10 ^ exponent`. -/
def ofDecimal (digits : Nat) (exponent : Int) : Float :=
  let size := (Nat.toDigits 10 digits).length + exponent
  if digits = 0 ∨ size < -400 then 0.0
  else if 400 < size then 1.0 / 0.0
  else Float.ofScientific digits (exponent < 0) exponent.natAbs

/-- A sign and what it stands in front of. -/
def takeSign : List Char → Bool × List Char
  | '-' :: rest => (true, rest)
  | '+' :: rest => (false, rest)
  | rest => (false, rest)

/-- An exponent with its mark, or nothing. -/
def exponent? : List Char → Option Int
  | [] => some 0
  | c :: rest =>
    let (negative, digits) := takeSign rest
    if (c = 'e' ∨ c = 'E') ∧ digits ≠ [] ∧ digits.all isDigit then
      some (if negative then -(ofDigits digits : Int) else ofDigits digits)
    else none

/-- A number without a sign: digits with a point among them or none, and an exponent. -/
def unsigned? (text : List Char) : Option Float :=
  if text = ['i', 'n', 'f'] then some (1.0 / 0.0)
  else if text = ['n', 'a', 'n'] then some (0.0 / 0.0)
  else
    let whole := text.takeWhile isDigit
    let (fraction, rest) := match text.dropWhile isDigit with
      | '.' :: rest => (rest.takeWhile isDigit, rest.dropWhile isDigit)
      | rest => ([], rest)
    if whole = [] ∧ fraction = [] then none
    else (exponent? rest).map fun e => ofDecimal (ofDigits (whole ++ fraction)) (e - fraction.length)

/-- The number that a text with an optional sign stands for. -/
def ofText? (text : String) : Option Float :=
  let (negative, rest) := takeSign text.toList
  (unsigned? rest).map fun x => if negative then -x else x

end Lox.Number
