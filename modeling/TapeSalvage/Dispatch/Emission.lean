import TapeSalvage.Dispatch.Registry

/-!
Emitting events while listeners change the rosters. An emission goes through the positions of a
roster that were filled when it began and calls who stands there when their turn comes. What a
listener does when it is called is up to it. In a session a listener may bring a script of steps,
which it runs the first time it is called.
-/
namespace TapeSalvage.Dispatch

section Emission

variable {σ : Type} (view : σ → Registry) (call : σ → Entry → σ)

/-- The turn of one position of a roster; nobody is called if it is not filled any more. -/
def turn (number : Nat) (state : σ) (position : Nat) : σ :=
  match ((view state).membersOf number)[position]? with
  | none => state
  | some entry => call state entry

def walk (number : Nat) (positions : Nat) (state : σ) : σ :=
  (List.range positions).foldl (turn view call number) state

/-- Emits an event in a state with a registry, where `call` is what comes of calling who stands on
an entry. -/
def emit (event : String) (state : σ) : σ :=
  match (view state).number? event with
  | none => state
  | some number => walk view call number ((view state).membersOf number).length state

end Emission

inductive Step (δ : Type) where
  | on (event : String) (listener : Listener)
  | off (event : String) (listener : Listener)
  | emit (event : String) (data : δ)
  | clear (event : String)

/-- A registry in use: the scripts that have not run yet, and the calls made so far with the last
one first. -/
structure Session (δ : Type) where
  registry : Registry
  scripts : List (Listener × List (Step δ))
  calls : List (Listener × δ)

variable {δ : Type}

/-- Calls a listener: the call is noted, then its script runs if it still has one. -/
def Session.call (run : Session δ → List (Step δ) → Session δ) (data : δ) (session : Session δ)
    (entry : Entry) : Session δ :=
  let noted := { session with calls := (entry.listener, data) :: session.calls }
  match session.scripts.lookup entry.listener with
  | none => noted
  | some script =>
    run { noted with scripts := session.scripts.filter (·.1 != entry.listener) } script

def Session.act (run : Session δ → List (Step δ) → Session δ) (session : Session δ) :
    Step δ → Session δ
  | .on event listener => { session with registry := session.registry.add event listener }
  | .off event listener => { session with registry := session.registry.remove event listener }
  | .emit event data => emit Session.registry (Session.call run data) event session
  | .clear event => { session with registry := session.registry.clear event }

/-- Runs a script whose listeners may run scripts in turn, to the given depth. -/
def Session.runWithin : (depth : Nat) → Session δ → List (Step δ) → Session δ
  | 0, session, _ => session
  | depth + 1, session, script => script.foldl (Session.act (Session.runWithin depth)) session

/-- Does one step. Each script runs at most once, so that scripts cannot be nested deeper than
there are scripts. -/
def Session.perform (session : Session δ) (step : Step δ) : Session δ :=
  session.act (Session.runWithin session.scripts.length) step

/-- Does one step and gives the calls that it made, in order. -/
def Session.performNoting (session : Session δ) (step : Step δ) :
    Session δ × List (Listener × δ) :=
  let after := { session with calls := [] }.perform step
  (after, after.calls.reverse)

end TapeSalvage.Dispatch
