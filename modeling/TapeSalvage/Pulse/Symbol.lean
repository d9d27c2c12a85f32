import TapeSalvage.Pulse.Cluster

/-!
The symbols that pulses stand for. Pulses in a range of durations are clustered into three bands;
a pulse in the range takes the symbol of its band, and a pulse outside it is unknown.
-/
namespace TapeSalvage.Pulse

inductive Symbol where
  | short
  | medium
  | long
  | unknown
  deriving DecidableEq

def Symbol.ofBand : Nat → Symbol
  | 0 => short
  | 1 => medium
  | _ => long

structure Rules (α : Type) where
  /-- The shortest duration that takes part in clustering. -/
  shortest : Int
  /-- The longest duration that takes part in clustering. -/
  longest : Int
  rounds : Int
  /-- Rounds end when all centres move less than this. -/
  threshold : α

structure Rules.Changes (α : Type) where
  shortest : Option Int := none
  longest : Option Int := none
  rounds : Option Int := none
  threshold : Option α := none

variable {α : Type} [Gauge α]

def Rules.standard : Rules α where
  shortest := 10
  longest := 250
  rounds := 40
  threshold := Gauge.millionth

def Rules.change (rules : Rules α) (changes : Rules.Changes α) : Rules α where
  shortest := changes.shortest.getD rules.shortest
  longest := changes.longest.getD rules.longest
  rounds := changes.rounds.getD rules.rounds
  threshold := changes.threshold.getD rules.threshold

@[specialize] def Rules.admits (rules : Rules α) (pulse : α) : Bool :=
  Gauge.le (Gauge.ofInt rules.shortest) pulse && Gauge.le pulse (Gauge.ofInt rules.longest)

/-- The symbols of a list of pulses, the centres of the three bands, and the number of pulses
that were clustered. -/
structure Classification (α : Type) where
  symbols : List Symbol
  centers : List α
  clustered : Nat

@[specialize] def symbolOf (rules : Rules α) (centers : List α) (pulse : α) : Symbol :=
  if rules.admits pulse then .ofBand (nearest pulse centers) else .unknown

@[specialize] def classify (rules : Rules α) (pulses : List α) :
    Except Fault (Classification α) := do
  let usable := pulses.filter rules.admits
  if usable.isEmpty then .error (.pulsesUnusable rules.shortest rules.longest)
  else
    let centers ← cluster usable 3 rules.rounds.toNat rules.threshold
    return ⟨pulses.map (symbolOf rules centers), centers, usable.length⟩

end TapeSalvage.Pulse
