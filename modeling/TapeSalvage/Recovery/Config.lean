import TapeSalvage.Block.Selection
import TapeSalvage.Header.Locate
import TapeSalvage.Listing.Program
import TapeSalvage.Program
import TapeSalvage.Pulse.Symbol
import TapeSalvage.Scan.Rules

/-!
How a recovery is set up. The rules of the stages are given as changes to their standard rules; a
later change of the rules of a stage takes the place of an earlier one as a whole.
-/
namespace TapeSalvage.Recovery

inductive Mode where
  | blocks
  | scan
  /-- By blocks, and by scanning where that finds nothing. -/
  | automatic
  deriving DecidableEq

structure Config (α : Type) where
  /-- The name that stands in console lines. -/
  name : String
  mode : Mode
  copy : Block.Choice
  strategy : Header.Strategy
  /-- Whether the console stays silent. -/
  isQuiet : Bool
  pulses : Pulse.Rules.Changes α
  header : Header.Rules.Changes
  scan : Scan.Rules.Changes
  /-- The longest program that is assembled, where it is not the usual one. -/
  lengthLimit : Option Int
  listing : Listing.Rules.Changes

structure Config.Changes (α : Type) where
  name : Option String := none
  mode : Option Mode := none
  copy : Option Block.Choice := none
  strategy : Option Header.Strategy := none
  isQuiet : Option Bool := none
  pulses : Option (Pulse.Rules.Changes α) := none
  header : Option Header.Rules.Changes := none
  scan : Option Scan.Rules.Changes := none
  lengthLimit : Option (Option Int) := none
  listing : Option Listing.Rules.Changes := none

variable {α : Type}

def Config.standard : Config α where
  name := "tape"
  mode := .automatic
  copy := .automatic
  strategy := .first
  isQuiet := false
  pulses := {}
  header := {}
  scan := {}
  lengthLimit := none
  listing := {}

def Config.change (config : Config α) (changes : Config.Changes α) : Config α where
  name := changes.name.getD config.name
  mode := changes.mode.getD config.mode
  copy := changes.copy.getD config.copy
  strategy := changes.strategy.getD config.strategy
  isQuiet := changes.isQuiet.getD config.isQuiet
  pulses := changes.pulses.getD config.pulses
  header := changes.header.getD config.header
  scan := changes.scan.getD config.scan
  lengthLimit := changes.lengthLimit.getD config.lengthLimit
  listing := changes.listing.getD config.listing

end TapeSalvage.Recovery
