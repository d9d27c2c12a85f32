import TapeSalvage.Amount
import TapeSalvage.Header

/-!
How much a payload looks like a header. A payload is turned down when its addresses cannot be a
program or its name is blank; of the others the better one has more usual characters in its name,
a start near the usual one, and a longer program.
-/
namespace TapeSalvage.Header

structure Rules where
  lowestStart : Int
  highestStart : Int
  shortest : Int
  longest : Int
  /-- Start addresses in this window earn a bonus and one for nearness. -/
  windowLow : Int
  windowHigh : Int
  usualStart : Int
  windowBonus : Int
  nearnessBonus : Int
  nearnessDivisor : Divisor
  lengthDivisor : Divisor
  lengthBonusLimit : Int

structure Rules.Changes where
  lowestStart : Option Int := none
  highestStart : Option Int := none
  shortest : Option Int := none
  longest : Option Int := none
  window : Option (Int × Int) := none
  usualStart : Option Int := none
  windowBonus : Option Int := none
  nearnessBonus : Option Int := none
  nearnessDivisor : Option Divisor := none
  lengthDivisor : Option Divisor := none
  lengthBonusLimit : Option Int := none

def Rules.standard : Rules where
  lowestStart := 0x0200
  highestStart := 0x8000
  shortest := 512
  longest := 32768
  windowLow := 0x0F00
  windowHigh := 0x2000
  usualStart := 0x1001
  windowBonus := 20
  nearnessBonus := 20
  nearnessDivisor := .ofInt 32
  lengthDivisor := .ofInt 512
  lengthBonusLimit := 40

def Rules.change (rules : Rules) (changes : Rules.Changes) : Rules where
  lowestStart := changes.lowestStart.getD rules.lowestStart
  highestStart := changes.highestStart.getD rules.highestStart
  shortest := changes.shortest.getD rules.shortest
  longest := changes.longest.getD rules.longest
  windowLow := (changes.window.map (·.1)).getD rules.windowLow
  windowHigh := (changes.window.map (·.2)).getD rules.windowHigh
  usualStart := changes.usualStart.getD rules.usualStart
  windowBonus := changes.windowBonus.getD rules.windowBonus
  nearnessBonus := changes.nearnessBonus.getD rules.nearnessBonus
  nearnessDivisor := changes.nearnessDivisor.getD rules.nearnessDivisor
  lengthDivisor := changes.lengthDivisor.getD rules.lengthDivisor
  lengthBonusLimit := changes.lengthBonusLimit.getD rules.lengthBonusLimit

/-- A header with its declared length and its score. -/
structure Scored where
  header : Header
  length : Int
  score : Amount

/-- The length that a header declares, negative if its addresses are out of order. -/
def length (header : Header) : Int := (header.endAddress : Int) - header.startAddress

def isCredible (rules : Rules) (header : Header) : Bool :=
  rules.lowestStart ≤ header.startAddress && header.startAddress ≤ rules.highestStart &&
    rules.shortest ≤ header.length && header.length ≤ rules.longest &&
    header.rawName.any (· != 0x20)

def placeBonus (rules : Rules) (start : Nat) : Amount :=
  if rules.windowLow ≤ start && start ≤ rules.windowHigh then
    let distance := (Amount.ofInt (start - rules.usualStart)).abs
    let nearness := .finite rules.nearnessBonus - Amount.share distance rules.nearnessDivisor
    .finite rules.windowBonus + Amount.greater 0 nearness
  else 0

def points (rules : Rules) (header : Header) : Amount :=
  placeBonus rules header.startAddress + .ofInt (header.rawName.countP isNameByte) +
    Amount.lesser (.finite rules.lengthBonusLimit)
      (Amount.share (.ofInt header.length) rules.lengthDivisor)

/-- Scores a payload as a header; `none` if it is turned down. -/
def score (rules : Rules) (payload : Bytes) : Except Fault (Option Scored) := do
  let header ← parse payload
  if isCredible rules header then return some ⟨header, header.length, points rules header⟩
  else return none

end TapeSalvage.Header
