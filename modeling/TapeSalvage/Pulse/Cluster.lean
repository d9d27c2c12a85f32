import TapeSalvage.Fault
import TapeSalvage.Pulse.Gauge

/-!
Clusters of durations on a line. The centres start at fractiles of the sorted durations; each
round gives every duration to its nearest centre and moves each centre to the mean of what it was
given. The rounds end when all centres would move less than a threshold; that last move is not
made.
-/
namespace TapeSalvage.Pulse

variable {α : Type} [Gauge α]

/-- The index of the nearest of the remaining centres, or `best` if none is strictly nearer. -/
@[specialize] def nearestFrom (value : α) (best : Nat) (reach : α) (index : Nat) : List α → Nat
  | [] => best
  | center :: rest =>
    let distance := Gauge.distance value center
    if Gauge.lt distance reach then nearestFrom value index distance (index + 1) rest
    else nearestFrom value best reach (index + 1) rest

/-- The index of the centre nearest to a value; of equally near ones the first. -/
@[specialize] def nearest (value : α) : List α → Nat
  | [] => 0
  | center :: rest => nearestFrom value 0 (Gauge.distance value center) 1 rest

@[specialize] def ascending (values : List α) : List α := values.mergeSort Gauge.le

/-- The starting centres: for `count` centres, the values that divide the sorted list into
`count + 1` parts. -/
@[specialize] def seeds (values : List α) (count : Nat) : List α :=
  let sorted := ascending values
  (List.range count).filterMap fun i => sorted[(i + 1) * sorted.length / (count + 1)]?

@[specialize] def total (values : List α) : α := values.foldl Gauge.add (Gauge.ofInt 0)

/-- The mean of the values of a bucket; an empty bucket keeps its centre. -/
@[specialize] def meanOr (center : α) (bucket : List α) : α :=
  if bucket.isEmpty then center else Gauge.share (total bucket) bucket.length

@[specialize] def recenter (values centers : List α) : List α :=
  let marked := values.map fun value => (nearest value centers, value)
  centers.mapIdx fun i center =>
    meanOr center ((marked.filter fun mark => mark.1 == i).map (·.2))

@[specialize] def isSettled (threshold : α) (before after : List α) : Bool :=
  (after.zip before).all fun pair => Gauge.lt (Gauge.distance pair.1 pair.2) threshold

@[specialize] def settle (values : List α) (threshold : α) : (rounds : Nat) → List α → List α
  | 0, centers => centers
  | rounds + 1, centers =>
    let moved := recenter values centers
    if isSettled threshold centers moved then centers else settle values threshold rounds moved

/-- The centres of `count` clusters in ascending order. -/
@[specialize] def cluster (values : List α) (count rounds : Nat) (threshold : α) :
    Except Fault (List α) :=
  if values.isEmpty then .error .valuesMissing
  else .ok (ascending (settle values threshold rounds (seeds values count)))

end TapeSalvage.Pulse
