import TapeSalvage.Proofs.Scan.Checked
import TapeSalvage.Proofs.Scan.Foremost

/-!
Programs in other surroundings. A candidate is judged by the bytes from its load address to one byte
behind its closing record. So bytes in front of a stream shift its offsets and bytes behind the
stream do nothing to it. What is found in a longer stream scores no less, unless the first candidate
of one of the streams has an undefined score.
-/
namespace TapeSalvage.Scan

open Amount
open Listing (Stored)

def Candidate.shift (distance : Nat) (candidate : Candidate) : Candidate :=
  { candidate with
    offset := candidate.offset + distance
    endOffset := candidate.endOffset + distance }

section

variable {rules : Rules}

/-- A chain that closes also closes before more bytes. -/
theorem Passes.append {load : Nat} {trail final : Trail} {data : Bytes} {lines : List Stored}
    (h : Passes rules load trail data lines final) (after : Bytes) :
    Passes rules load trail (data ++ after) lines final := by
  induction h with
  | @close _ rest hrest =>
    have hlonger : 3 ≤ (rest ++ after).length := by
      rw [List.length_append]
      omega
    exact .close hlonger
  | line hline _ ih =>
    rw [List.append_assoc]
    exact .line hline ih

end

end TapeSalvage.Scan
