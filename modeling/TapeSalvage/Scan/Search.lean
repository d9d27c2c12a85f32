import TapeSalvage.Fault
import TapeSalvage.Scan.Trail

/-!
The search for the best program in a byte stream. Of two candidates the one with the higher score is
the better one, and of equal scores the one at the lower offset; a candidate with an undefined score
neither takes nor loses a place that is held. Every offset is tried, and the search can be cut into
ranges whose results are compared afterwards.
-/
namespace TapeSalvage.Scan

/-- A place in a stream where a program seems to start. -/
structure Candidate where
  offset : Int
  score : Amount
  loadAddress : Int
  /-- The offset just past the four bytes of the closing record. -/
  endOffset : Int
  lineCount : Int
  penalty : Amount
  deriving DecidableEq

def closeness (rules : Rules) (load : Nat) : Amount :=
  let distance := (.ofInt load - rules.usualLoad).abs
  Amount.greater 0 (rules.closenessBonus - Amount.share distance rules.closenessDivisor)

def Trail.candidate (rules : Rules) (offset load : Nat) (trail : Trail) : Candidate where
  offset := offset
  score := rules.lineWeight.times trail.lines + closeness rules load - trail.penalty
  loadAddress := load
  endOffset := offset + 2 + trail.distance + 4
  lineCount := trail.lines
  penalty := trail.penalty

/-- The candidate whose load address stands at the front of the bytes, which are the stream from
`offset` on. A program needs more than ten bytes. -/
def judge (rules : Rules) (offset : Nat) : Bytes → Option Candidate
  | low :: high :: rest =>
    let load := word low high
    if load < rules.lowestLoad || rules.highestLoad < load || !holds 9 rest then none
    else
      match follow rules load rules.recordLimit.toNat (.start load) rest with
      | none => none
      | some trail =>
        if trail.lines < rules.fewestLines then none else some (trail.candidate rules offset load)
  | _ => none

def candidateAt (rules : Rules) (data : Bytes) (offset : Int) : Option Candidate :=
  if offset < 0 then none else judge rules offset.toNat (data.drop offset.toNat)

/-- Whether `challenger` takes the place of `holder`. -/
def Candidate.beats (challenger holder : Candidate) : Bool :=
  holder.score.lt challenger.score ||
    (challenger.score.same holder.score && challenger.offset < holder.offset)

theorem Candidate.beats_iff (challenger holder : Candidate) :
    challenger.beats holder = true ↔
      holder.score.lt challenger.score = true ∨
        (challenger.score.same holder.score = true ∧ challenger.offset < holder.offset) := by
  simp [beats]

def better : Option Candidate → Option Candidate → Option Candidate
  | none, other => other
  | some holder, none => some holder
  | some holder, some challenger => if challenger.beats holder then some challenger else some holder

@[simp] theorem better_none_left (other : Option Candidate) : better none other = other := by
  cases other <;> rfl

@[simp] theorem better_none_right (holder : Option Candidate) : better holder none = holder := by
  cases holder <;> rfl

def bestOf (candidates : List (Option Candidate)) : Option Candidate :=
  candidates.foldl better none

/-- The best of `best` and the candidates at the next `count` offsets. -/
def searchFrom (rules : Rules) (offset : Nat) :
    (count : Nat) → Option Candidate → Bytes → Option Candidate
  | count + 1, best, byte :: rest =>
    searchFrom rules (offset + 1) count (better best (judge rules offset (byte :: rest))) rest
  | _, best, _ => best
termination_by structural count => count

/-- The best candidate at the offsets from `first` up to, but not including, `stop`. -/
def searchRange (rules : Rules) (data : Bytes) (first stop : Int) : Option Candidate :=
  searchFrom rules first.toNat (stop.toNat - first.toNat) none (data.drop first.toNat)

def search? (rules : Rules) (data : Bytes) : Option Candidate :=
  searchRange rules data 0 (data.length - rules.tailReserve)

def search (rules : Rules) (data : Bytes) : Except Fault Candidate :=
  match search? rules data with
  | some candidate => .ok candidate
  | none => .error .programMissing

end TapeSalvage.Scan
