import Lox.Number.Shortest

/-!
# The text of a number

A number is written with the digits of its shortest decimal, in positions where its first digit
counts a power of ten from `10 ^ -4` to `10 ^ 15` and with an exponent elsewhere.
-/

namespace Lox.Number

/-- The choices that the digits of a number leave open. -/
structure Layout where
  /-- The least power of ten of the first digit that is written in positions. -/
  least : Int
  /-- The greatest power of ten of the first digit that is written in positions. -/
  greatest : Int
  /-- What follows a whole number in positions. -/
  wholeEnd : List Char

/-- How a program's output shows a number. -/
def plain : Layout := ⟨-4, 15, []⟩

/-- How a number is told apart from other kinds of values. -/
def marked : Layout := { plain with wholeEnd := ['.', '0'] }

/-- Digits with the point after the given number of them, which may lie outside. -/
def Layout.positions (layout : Layout) (digits : List Char) (point : Int) : List Char :=
  if point ≤ 0 then '0' :: '.' :: List.replicate (-point).toNat '0' ++ digits
  else if digits.length ≤ point then
    digits ++ List.replicate (point - digits.length).toNat '0' ++ layout.wholeEnd
  else digits.take point.toNat ++ '.' :: digits.drop point.toNat

/-- An exponent with its sign and at least two digits. -/
def exponentText (exponent : Int) : List Char :=
  let digits := Nat.toDigits 10 exponent.natAbs
  'e' :: (if exponent < 0 then '-' else '+') :: List.replicate (2 - digits.length) '0' ++ digits

/-- The first digit, a point before any others, and the exponent of the first one. -/
def scientific (digits : List Char) (exponent : Int) : List Char :=
  (match digits with
    | [] => []
    | [digit] => [digit]
    | digit :: rest => digit :: '.' :: rest) ++ exponentText exponent

/-- A decimal without zeros at the end of its digits. -/
def Layout.decimal (layout : Layout) (d : Decimal) : List Char :=
  let digits := Nat.toDigits 10 d.digits
  let point := digits.length + d.exponent
  let significant := (digits.reverse.dropWhile (· == '0')).reverse
  if layout.least ≤ point - 1 ∧ point - 1 ≤ layout.greatest then
    layout.positions significant point
  else scientific significant (point - 1)

/-- The digits of a finite double without its sign. -/
def Layout.magnitude (layout : Layout) (bits : UInt64) : List Char :=
  let b := Binary.ofBits bits
  if b.mantissa = 0 then '0' :: layout.wholeEnd else layout.decimal b.shortest

/-- The text of a number. -/
def Layout.text (layout : Layout) (x : Float) : List Char :=
  if x.isNaN then ['n', 'a', 'n']
  else
    let bits := x.toBits
    let sign := if 0x8000000000000000 ≤ bits then ['-'] else []
    sign ++ if x.isInf then ['i', 'n', 'f'] else layout.magnitude bits

end Lox.Number
