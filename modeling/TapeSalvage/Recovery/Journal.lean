import TapeSalvage.Block.Selection
import TapeSalvage.Fault

/-!
What a recovery tells while it runs. Events go to whoever listens; log lines and warnings also go
to the console unless it is silent. The journal outlives a fault: what was told before it stays
told.
-/
namespace TapeSalvage

structure Console where
  out : String
  err : String
  deriving DecidableEq

namespace Console

def empty : Console := ⟨"", ""⟩

def write (console : Console) (text : String) : Console :=
  { console with out := console.out ++ text }

def print (console : Console) (line : String) : Console := console.write (line ++ "\n")

def complain (console : Console) (line : String) : Console :=
  { console with err := console.err ++ line ++ "\n" }

def append (console later : Console) : Console :=
  ⟨console.out ++ later.out, console.err ++ later.err⟩

end Console

namespace Recovery

/-- The end of a stage, with what was counted in it. -/
inductive Progress (α : Type) where
  | read (pulses : Nat)
  | classified (centers : List α)
  | decoded (length markers rejected : Nat)
  | framed (copyA copyB : Nat) (checksums : Block.Tally)
  | listed (lines : Nat)

inductive Event (α : Type) where
  | log (text : String)
  | warning (text : String)
  | stage (progress : Progress α)

structure Journal (α : Type) where
  events : List (Event α)
  console : Console

variable {α : Type}

def Journal.empty : Journal α := ⟨[], .empty⟩

/-- A computation of a recovery: it ends with a value or a fault, and keeps a journal in both
cases. -/
abbrev Attempt (α ρ : Type) := ExceptT Fault (StateM (Journal α)) ρ

/-- What a set-up says about the console: the name in its lines, and whether it is silent. -/
structure Voice where
  name : String
  isQuiet : Bool

def tell (event : Event α) : Attempt α Unit :=
  modify fun journal => { journal with events := journal.events ++ [event] }

/-- Changes the console unless it is silent. -/
def onConsole (voice : Voice) (change : Console → Console) : Attempt α Unit :=
  if voice.isQuiet then pure ()
  else modify fun journal => { journal with console := change journal.console }

def log (voice : Voice) (text : String) : Attempt α Unit := do
  onConsole voice (·.print s!"[TapeRecovery:{voice.name}] {text}")
  tell (.log text)

def warn (voice : Voice) (text : String) : Attempt α Unit := do
  onConsole voice (·.complain s!"[TapeRecovery:{voice.name}] WARNING: {text}")
  tell (.warning text)

def report (progress : Progress α) : Attempt α Unit := tell (.stage progress)

/-- A result that may be a fault, as a computation without events. -/
def lift {ρ : Type} (result : Except Fault ρ) : Attempt α ρ := ExceptT.mk (pure result)

def run {ρ : Type} (attempt : Attempt α ρ) : Except Fault ρ × Journal α :=
  (ExceptT.run attempt).run .empty

end Recovery

end TapeSalvage
