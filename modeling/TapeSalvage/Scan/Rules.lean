import TapeSalvage.Amount

/-!
The bounds and weights of the search for programs. Weights are amounts. A bound of whole numbers is
whole itself, since any other bound lets the same whole numbers pass as a whole one.
-/
namespace TapeSalvage.Scan

structure Rules where
  lowestLoad : Int
  highestLoad : Int
  usualLoad : Amount
  /-- What loading at the usual address earns. -/
  closenessBonus : Amount
  /-- Each such distance from the usual address costs one point of that bonus. -/
  closenessDivisor : Divisor
  lineWeight : Amount
  fewestLines : Int
  highestLine : Int
  /-- The number of records that are followed, the closing one included. -/
  recordLimit : Int
  /-- The number of bytes in which the end of a line must be found. -/
  lineReach : Int
  /-- What a line number below the one before it costs. -/
  descentPenalty : Amount
  /-- A pointer that is further off than this costs the flat penalty. -/
  mismatchTolerance : Int
  mismatchPenalty : Amount
  /-- A smaller mismatch costs its quotient by this divisor. -/
  mismatchDivisor : Divisor
  /-- What a pointer costs that is not above the one before it. -/
  stallPenalty : Amount
  /-- A candidate with a higher penalty is given up. -/
  penaltyLimit : Amount
  /-- The number of bytes at the end of a stream at which no program is looked for. -/
  tailReserve : Int

structure Rules.Changes where
  lowestLoad : Option Int := none
  highestLoad : Option Int := none
  usualLoad : Option Amount := none
  closenessBonus : Option Amount := none
  closenessDivisor : Option Divisor := none
  lineWeight : Option Amount := none
  fewestLines : Option Int := none
  highestLine : Option Int := none
  recordLimit : Option Int := none
  lineReach : Option Int := none
  descentPenalty : Option Amount := none
  mismatchTolerance : Option Int := none
  mismatchPenalty : Option Amount := none
  mismatchDivisor : Option Divisor := none
  stallPenalty : Option Amount := none
  penaltyLimit : Option Amount := none
  tailReserve : Option Int := none

def Rules.standard : Rules where
  lowestLoad := 0x0400
  highestLoad := 0x4000
  usualLoad := 0x1001
  closenessBonus := 40
  closenessDivisor := .ofInt 16
  lineWeight := 50
  fewestLines := 3
  highestLine := 63999
  recordLimit := 5000
  lineReach := 512
  descentPenalty := 10
  mismatchTolerance := 64
  mismatchPenalty := 25
  mismatchDivisor := .ofInt 4
  stallPenalty := 15
  penaltyLimit := 400
  tailReserve := 0

def Rules.change (rules : Rules) (changes : Rules.Changes) : Rules where
  lowestLoad := changes.lowestLoad.getD rules.lowestLoad
  highestLoad := changes.highestLoad.getD rules.highestLoad
  usualLoad := changes.usualLoad.getD rules.usualLoad
  closenessBonus := changes.closenessBonus.getD rules.closenessBonus
  closenessDivisor := changes.closenessDivisor.getD rules.closenessDivisor
  lineWeight := changes.lineWeight.getD rules.lineWeight
  fewestLines := changes.fewestLines.getD rules.fewestLines
  highestLine := changes.highestLine.getD rules.highestLine
  recordLimit := changes.recordLimit.getD rules.recordLimit
  lineReach := changes.lineReach.getD rules.lineReach
  descentPenalty := changes.descentPenalty.getD rules.descentPenalty
  mismatchTolerance := changes.mismatchTolerance.getD rules.mismatchTolerance
  mismatchPenalty := changes.mismatchPenalty.getD rules.mismatchPenalty
  mismatchDivisor := changes.mismatchDivisor.getD rules.mismatchDivisor
  stallPenalty := changes.stallPenalty.getD rules.stallPenalty
  penaltyLimit := changes.penaltyLimit.getD rules.penaltyLimit
  tailReserve := changes.tailReserve.getD rules.tailReserve

end TapeSalvage.Scan
