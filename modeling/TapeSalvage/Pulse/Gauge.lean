/-!
The arithmetic that pulse durations and cluster centres need. Clustering is written once over any
gauge: binary floating point is the gauge for running it, and exact fractions are the gauge in
which its laws hold without rounding.
-/
namespace TapeSalvage.Pulse

/-- Numbers in which durations are measured and averaged. -/
class Gauge (α : Type) where
  ofInt : Int → α
  add : α → α → α
  /-- The given number of equal parts of a total. -/
  share : α → Nat → α
  distance : α → α → α
  le : α → α → Bool
  lt : α → α → Bool
  /-- The value as a fraction, without rounding. -/
  exact : α → Rat
  millionth : α

instance : Gauge Rat where
  ofInt := fun value => value
  add := fun a b => a + b
  share := fun total parts => total / (parts : Rat)
  distance := fun a b => (a - b).abs
  le := fun a b => decide (a ≤ b)
  lt := fun a b => decide (a < b)
  exact := id
  millionth := 1 / 1000000

/-- The fraction that the bits of a finite double stand for. -/
def fractionOfBits (bits : Nat) : Rat :=
  let exponent := (bits >>> 52) % 2048
  let tail := bits % (1 <<< 52)
  let significand := if exponent = 0 then tail else tail + 1 <<< 52
  let scale := max exponent 1
  let magnitude : Rat :=
    if 1075 ≤ scale then ((significand <<< (scale - 1075) : Nat) : Rat)
    else mkRat significand (1 <<< (1075 - scale))
  if (bits >>> 63) % 2 = 1 then -magnitude else magnitude

instance : Gauge Float where
  ofInt := Float.ofInt
  add := fun a b => a + b
  share := fun total parts => total / Float.ofNat parts
  distance := fun a b => (a - b).abs
  le := fun a b => decide (a ≤ b)
  lt := fun a b => decide (a < b)
  exact := fun value => fractionOfBits value.toBits.toNat
  millionth := 1e-6

end TapeSalvage.Pulse
