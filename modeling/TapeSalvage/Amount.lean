import TapeSalvage.Binary

/-!
Amounts: binary fractions as numbers are reckoned with. The result of a step is rounded to the
nearest amount; one that is too large becomes infinite. So does the quotient by zero, and what
has no value at all, such as the difference of two infinite amounts, is undefined: neither above
nor below nor equal to any amount.
-/
namespace TapeSalvage

/-- A number of points, or of bytes, as it is reckoned with. -/
inductive Amount where
  | finite (value : Rat)
  | infinite (isNegative : Bool)
  | undefined
  deriving DecidableEq

namespace Amount

def exactLimit : Nat := Nat.pow 2 53

/-- The size that no finite amount reaches. -/
def sizeLimit : Rat := power 2 1024

def ofRat (value : Rat) : Amount :=
  let rounded := Binary.round value
  if rounded.abs < sizeLimit then finite rounded else infinite (rounded < 0)

def ofInt (value : Int) : Amount := ofRat value

instance (n : Nat) : OfNat Amount n := ⟨ofInt n⟩

/-- The whole number nearest to a whole number of which not all digits are kept. -/
def roundInt (value : Int) : Int := (Binary.round value).floor

def add : Amount → Amount → Amount
  | finite a, finite b => ofRat (a + b)
  | infinite a, infinite b => if a = b then infinite a else undefined
  | infinite a, finite _ => infinite a
  | finite _, infinite b => infinite b
  | _, _ => undefined

def neg : Amount → Amount
  | finite a => finite (-a)
  | infinite a => infinite !a
  | undefined => undefined

instance : Add Amount := ⟨add⟩
instance : Neg Amount := ⟨neg⟩
instance : Sub Amount := ⟨fun a b => a + -b⟩

def abs : Amount → Amount
  | finite a => finite a.abs
  | infinite _ => infinite false
  | undefined => undefined

/-- The product with a count. An infinite amount taken no times is undefined. -/
def times (count : Nat) : Amount → Amount
  | finite a => ofRat (count * a)
  | infinite a => if count = 0 then undefined else infinite a
  | undefined => undefined

def lt : Amount → Amount → Bool
  | finite a, finite b => a < b
  | infinite a, finite _ => a
  | finite _, infinite b => !b
  | infinite a, infinite b => a && !b
  | _, _ => false

def same (a b : Amount) : Bool := decide (a ≠ undefined ∧ a = b)

/-- The greater of two amounts, if both are defined. -/
def greater (a b : Amount) : Amount :=
  if a = undefined ∨ b = undefined then undefined else if a.lt b then b else a

/-- The lesser of two amounts, if both are defined. -/
def lesser (a b : Amount) : Amount :=
  if a = undefined ∨ b = undefined then undefined else if b.lt a then b else a

def floor : Amount → Amount
  | finite a => finite a.floor
  | infinite a => infinite a
  | undefined => undefined

end Amount

/-- A number to divide by. A zero has a sign, which decides which infinite amount it gives. -/
inductive Divisor where
  | amount (value : Amount)
  | negativeZero
  deriving DecidableEq

namespace Divisor

def ofInt (value : Int) : Divisor := amount (.finite value)

def value : Divisor → Amount
  | amount value => value
  | negativeZero => .finite 0

def isNegative : Divisor → Bool
  | amount value => value.lt (.finite 0)
  | negativeZero => true

end Divisor

namespace Amount

def quotient (total : Amount) (divisor : Divisor) : Amount :=
  match total, divisor.value with
  | finite a, finite b =>
    if b ≠ 0 then ofRat (a / b)
    else if a = 0 then undefined
    else infinite (divisor.isNegative ^^ a < 0)
  | infinite a, finite _ => infinite (divisor.isNegative ^^ a)
  | finite _, infinite _ => finite 0
  | _, _ => undefined

def share (total : Amount) (divisor : Divisor) : Amount := (quotient total divisor).floor

-- A quotient of 4503599627370496 and two thirds is rounded up to an amount first.
example : share 13510798882111490 (.ofInt 3) = 4503599627370497 := by decide +kernel

end Amount

end TapeSalvage
