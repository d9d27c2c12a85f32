import TapeSalvage.Block
import TapeSalvage.Header.Score

/-!
Finding the header among the blocks of a copy: it is the first block, or the block that scores
best as a header. The blocks after it carry the program.
-/
namespace TapeSalvage.Header

inductive Strategy where
  /-- The first block is the header. -/
  | first
  /-- The block with the best score is the header; of equal ones the first. -/
  | scored
  deriving DecidableEq

/-- A header that was found, its place among the blocks, and the payloads after it. -/
structure Location where
  index : Nat
  header : Header
  /-- The score, where scores decided. -/
  score : Option Amount
  payloads : List Bytes

def keepBest (best : Option (Nat × Scored)) (next : Nat × Option Scored) : Option (Nat × Scored) :=
  match next.2, best with
  | none, _ => best
  | some scored, none => some (next.1, scored)
  | some scored, some (index, leader) =>
    if leader.score.lt scored.score then some (next.1, scored) else some (index, leader)

def best? (scores : List (Option Scored)) : Option (Nat × Scored) :=
  (scores.zipIdx.map fun pair => (pair.2, pair.1)).foldl keepBest none

def locate (strategy : Strategy) (rules : Rules) (blocks : List Block) :
    Except Fault Location := do
  match strategy, blocks with
  | _, [] => .error .copyEmpty
  | .first, block :: rest =>
    let header ← parse block.payload
    return ⟨0, header, none, rest.map (·.payload)⟩
  | .scored, blocks =>
    let scores ← blocks.mapM fun block => score rules block.payload
    match best? scores with
    | none => .error .headerMissing
    | some (index, scored) =>
      return ⟨index, scored.header, some scored.score, (blocks.drop (index + 1)).map (·.payload)⟩

end TapeSalvage.Header
