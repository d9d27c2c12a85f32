import TapeSalvage.Block

/-!
The choice of a copy, and the count of good checksums in it.
-/
namespace TapeSalvage.Block

inductive Choice where
  | only (copy : Copy)
  /-- Copy A, or copy B where there is no block of copy A. -/
  | automatic
  deriving DecidableEq

def ofCopy (copy : Copy) (blocks : List Block) : List Block :=
  blocks.filter fun block => block.copy == copy

def Choice.copy (choice : Choice) (blocks : List Block) : Copy :=
  match choice with
  | .only copy => copy
  | .automatic => if (ofCopy .a blocks).isEmpty then .b else .a

structure Selection where
  copy : Copy
  blocks : List Block

def select (choice : Choice) (blocks : List Block) : Selection :=
  let copy := choice.copy blocks
  ⟨copy, ofCopy copy blocks⟩

structure Tally where
  matched : Nat
  sampled : Nat
  deriving DecidableEq

def sampleLimit : Int := 200

/-- The first `limit` blocks; a negative limit leaves out that many at the end. -/
def sample (limit : Int) (blocks : List Block) : List Block :=
  if limit < 0 then blocks.take (blocks.length - limit.natAbs) else blocks.take limit.toNat

def tally (limit : Int) (blocks : List Block) : Tally :=
  let sampled := sample limit blocks
  ⟨sampled.countP (·.isIntact), sampled.length⟩

end TapeSalvage.Block
