import Calculator.Number.Binary

/-!
Decimal numbers `± coefficient · 10 ^ exponent` and the float nearest to one. The
exponent may be any integer: far outside the range of floats the answer is
settled by the position of the first digit alone, and no great power is formed.
-/
namespace Calculator.Number
attribute [local instance (high)] instPowNat

/-- A sign and the exact magnitude `coefficient · 10 ^ exponent`. -/
structure Decimal where
  negative : Bool
  coefficient : Nat
  exponent : Int
deriving DecidableEq

namespace Decimal

/-- The number of digits of a natural; zero has one. -/
def digitCount (n : Nat) : Nat := (Nat.toDigits 10 n).length

/-- The least `k` for which the magnitude is below `10 ^ k`, unless it is zero. -/
def position (d : Decimal) : Int := digitCount d.coefficient + d.exponent

/-- Magnitudes of `10 ^ greatest` and more round to infinity. -/
def greatestPosition : Int := 309

/-- Magnitudes below `10 ^ least` round to zero. -/
def leastPosition : Int := -323

/-- The magnitude bits of the float nearest to a decimal number. -/
def magnitude (d : Decimal) : Nat :=
  if d.coefficient = 0 ∨ d.position < leastPosition then 0
  else if greatestPosition < d.position then infinityBits
  else nearestMagnitude (d.coefficient * 10 ^ d.exponent.toNat) (10 ^ (-d.exponent).toNat)

/-- The float nearest to a decimal number, with its sign also for zero. -/
def toFloat (d : Decimal) : Float := ofMagnitude d.negative d.magnitude

end Decimal

end Calculator.Number
