/-!
Binary fractions of bounded length. Of a number its 53 leading binary digits are kept, and no digit
beyond place 1074. Rounding gives the nearest such fraction, and of two equally near ones the one
whose last digit is even.
-/
namespace TapeSalvage

/-- A power with a whole exponent. -/
def power (base : Nat) (exponent : Int) : Rat :=
  if exponent < 0 then mkRat 1 (base.pow exponent.natAbs)
  else ((base.pow exponent.toNat : Nat) : Rat)

namespace Binary

/-- The nearest whole number, and the even one of two equally near. -/
def nearest (value : Rat) : Int :=
  let low := value.floor
  let rest := value - low
  if 2 * rest < 1 ∨ (2 * rest = 1 ∧ low % 2 = 0) then low else low + 1

/-- The place of the leading binary digit of a positive number. -/
def leadingPlace (size : Rat) : Int :=
  -- The lengths of numerator and denominator leave two places to choose from.
  let place : Int := (size.num.natAbs.log2 : Int) - size.den.log2
  if power 2 place ≤ size then place else place - 1

/-- The place of the last binary digit that is kept of a positive number. -/
def lastPlace (size : Rat) : Int := max (leadingPlace size - 52) (-1074)

def round (value : Rat) : Rat :=
  let unit := power 2 (lastPlace value.abs)
  nearest (value / unit) * unit

example : round 9007199254740993 = 9007199254740992 := by decide +kernel
example : round (-1 / 3) = -6004799503160661 / 18014398509481984 := by decide +kernel

end Binary

end TapeSalvage
