/-!
# Shortest decimals

A finite double is `mantissa * 2 ^ exponent`. Every real number between the midpoints to its two
neighbours reads back as it. Its shortest decimal is the decimal with the fewest digits among
these, and of two of that length the nearer one. Main statement: the shortest decimal lies between
the midpoints.
-/

namespace Lox.Number

/-- The magnitude of a finite double. -/
structure Binary where
  mantissa : Nat
  exponent : Int
  /-- The neighbour below is only half as far away as the one above. -/
  narrowBelow : Bool

/-- The magnitude that the bits of a finite double stand for. -/
def Binary.ofBits (bits : UInt64) : Binary :=
  let field := (bits >>> 52).toNat % 0x800
  let fraction := bits.toNat % Nat.pow 2 52
  if field = 0 then ⟨fraction, -1074, false⟩
  else ⟨Nat.pow 2 52 + fraction, field - 1075, fraction = 0 && field ≠ 1⟩

/-- The decimal `digits * 10 ^ exponent`. -/
structure Decimal where
  digits : Nat
  exponent : Int
  deriving DecidableEq

/-- A value and the midpoints to its neighbours, all as multiples of `1 / unit`. -/
structure Span where
  low : Nat
  value : Nat
  high : Nat
  unit : Nat
  /-- The midpoints themselves belong to the span. -/
  closed : Bool

/-- Midpoints round to the even mantissa. -/
def Binary.span (b : Binary) : Span :=
  let scale := Nat.pow 2 (b.exponent - 2).toNat
  { low := (4 * b.mantissa - if b.narrowBelow then 1 else 2) * scale
    value := 4 * b.mantissa * scale
    high := (4 * b.mantissa + 2) * scale
    unit := Nat.pow 2 (2 - b.exponent).toNat
    closed := b.mantissa % 2 = 0 }

/-- The span in units of `10 ^ exponent`. -/
def Span.inUnits (s : Span) (exponent : Int) : Span :=
  let up := Nat.pow 10 (-exponent).toNat
  { low := s.low * up, value := s.value * up, high := s.high * up
    unit := s.unit * Nat.pow 10 exponent.toNat, closed := s.closed }

/-- Whether a whole number of units lies in the span. -/
def Span.holds (s : Span) (n : Nat) : Bool :=
  if s.closed then decide (s.low ≤ n * s.unit) && decide (n * s.unit ≤ s.high)
  else decide (s.low < n * s.unit) && decide (n * s.unit < s.high)

/-- Of the two whole numbers around the value the one nearer to it, the even one at a tie. -/
def Span.nearest (s : Span) : Nat :=
  let below := s.value / s.unit
  let twice := 2 * (s.value - below * s.unit)
  if twice < s.unit then below
  else if s.unit < twice then below + 1
  else if below % 2 = 0 then below
  else below + 1

/-- The whole number of units in the span that is nearest to the value, if there is one. -/
def Span.whole? (s : Span) : Option Nat :=
  let below := s.value / s.unit
  match s.holds below, s.holds (below + 1) with
  | true, true => some s.nearest
  | true, false => some below
  | false, true => some (below + 1)
  | false, false => none

/-- The number of decimal digits of a number. -/
def digitCount (n : Nat) : Nat := (Nat.toDigits 10 n).length

/-- The power of ten that the first digit of a value counts. -/
def Span.leading (s : Span) : Int :=
  if s.unit ≤ s.value then digitCount (s.value / s.unit) - 1
  else -(digitCount ((s.unit - 1) / s.value) : Int)

/-- A double as a decimal, without any rounding. -/
def Binary.exact (b : Binary) : Decimal :=
  ⟨b.mantissa * Nat.pow 2 b.exponent.toNat * Nat.pow 5 (-b.exponent).toNat, min b.exponent 0⟩

/-- The decimal nearest to the value whose last digit counts the given power of ten, if it is in
the span. -/
def Span.decimal? (s : Span) (exponent : Int) : Option Decimal :=
  (s.inUnits exponent).whole?.map (⟨·, exponent⟩)

/-- The decimal with the fewest digits in the span; seventeen digits are always enough. -/
def Binary.shortest (b : Binary) : Decimal :=
  let s := b.span
  let leading := s.leading
  ((List.range 17).findSome? fun more : Nat => s.decimal? (leading - more)).getD b.exact

end Lox.Number
