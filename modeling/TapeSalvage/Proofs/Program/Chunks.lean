import TapeSalvage.Block
import TapeSalvage.Program
import TapeSalvage.Proofs.Amount.Rounding

/-!
Programs in blocks. A program is cut into payloads, the last one filled up with zero bytes;
assembling them cuts the filling off again, whatever payloads follow.
-/
namespace TapeSalvage.Program

open Block (payloadSize)

def padded (chunk : Bytes) : Bytes := chunk ++ List.replicate (payloadSize - chunk.length) 0

def chunksOf : (count : Nat) → Bytes → List Bytes
  | 0, _ => []
  | count + 1, program =>
    padded (program.take payloadSize) :: chunksOf count (program.drop payloadSize)

def chunks (program : Bytes) : List Bytes :=
  chunksOf ((program.length + (payloadSize - 1)) / payloadSize) program

theorem length_padded {chunk : Bytes} (h : chunk.length ≤ payloadSize) :
    (padded chunk).length = payloadSize := by
  rw [padded, List.length_append, List.length_replicate]
  omega

theorem padded_of_whole {chunk : Bytes} (h : chunk.length = payloadSize) :
    padded chunk = chunk := by
  rw [padded, h, Nat.sub_self, List.replicate_zero, List.append_nil]

theorem flatten_chunksOf_nil (count : Nat) :
    (chunksOf count []).flatten = List.replicate (count * payloadSize) 0 := by
  induction count with
  | zero => rfl
  | succ count ih =>
    rw [chunksOf, List.flatten_cons, List.drop_nil, ih, Nat.succ_mul, Nat.add_comm,
      ← List.replicate_append_replicate]
    rfl

/-- The payloads of a program are the program and zero bytes, if there are enough of them. -/
theorem flatten_chunksOf (count : Nat) (program : Bytes)
    (henough : program.length ≤ count * payloadSize) :
    (chunksOf count program).flatten =
      program ++ List.replicate (count * payloadSize - program.length) 0 := by
  induction count generalizing program with
  | zero =>
    have hempty : program = [] := List.length_eq_zero_iff.mp (by omega)
    rw [hempty]
    rfl
  | succ count ih =>
    rw [Nat.succ_mul] at henough ⊢
    rw [chunksOf, List.flatten_cons]
    rcases Nat.lt_or_ge program.length payloadSize with hshort | hlong
    · have hdrop : program.drop payloadSize = [] := List.drop_of_length_le (Nat.le_of_lt hshort)
      have htake : program.take payloadSize = program :=
        List.take_of_length_le (Nat.le_of_lt hshort)
      have hfill : count * payloadSize + payloadSize - program.length =
          payloadSize - program.length + count * payloadSize := by omega
      rw [hdrop, htake, flatten_chunksOf_nil, padded, List.append_assoc, hfill,
        List.replicate_append_replicate]
    · have hwhole : (program.take payloadSize).length = payloadSize :=
        (List.length_take ..).trans (Nat.min_eq_left hlong)
      have hrest : (program.drop payloadSize).length = program.length - payloadSize :=
        List.length_drop
      have hfill : count * payloadSize - (program.length - payloadSize) =
          count * payloadSize + payloadSize - program.length := by omega
      rw [padded_of_whole hwhole, ih _ (by omega), hrest, hfill, ← List.append_assoc,
        List.take_append_drop]

/-- Cutting the joined payloads off at the length of the program leaves the program. -/
theorem take_flatten_chunks (program : Bytes) (extra : List Bytes) :
    (chunks program ++ extra).flatten.take program.length = program := by
  have henough : program.length ≤
      (program.length + (payloadSize - 1)) / payloadSize * payloadSize := by
    unfold payloadSize
    omega
  rw [List.flatten_append, chunks, flatten_chunksOf _ _ henough, List.append_assoc]
  exact List.take_left' rfl

/-- The payloads of a program assemble to the program. -/
theorem assemble_chunks {start : Nat} {program : Bytes} (hne : program ≠ [])
    (hfit : start + program.length ≤ 0xFFFF) (extra : List Bytes) :
    assemble lengthLimit start (start + program.length : Nat) (chunks program ++ extra) =
      .ok ⟨⟨start, program⟩, program.length, none⟩ := by
  have hpos : 0 < program.length := List.length_pos_iff.mpr hne
  have hdeclared : Amount.roundInt ((start + program.length : Nat) - start : Int) =
      (program.length : Int) := by
    have hlimit : 0xFFFF ≤ Amount.exactLimit := by decide
    have hsmall : ((start + program.length : Nat) - start : Int).natAbs ≤ Amount.exactLimit := by
      omega
    rw [Amount.roundInt_eq_self hsmall]
    omega
  have hin : ¬ ((program.length : Int) ≤ 0 ∨ lengthLimit < program.length) := by
    unfold lengthLimit
    omega
  have himage : Image.create start program = ⟨start, program⟩ := by
    unfold Image.create
    congr 1
    omega
  have hwhole : Shortfall.of? program.length program.length = none := if_neg (Nat.lt_irrefl _)
  unfold assemble
  rw [hdeclared]
  simp only [Bool.or_eq_true, decide_eq_true_eq, if_neg hin, Int.toNat_natCast,
    take_flatten_chunks, himage, hwhole]

end TapeSalvage.Program
