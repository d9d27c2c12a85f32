import TapeSalvage.Proofs.Scan.Damage

/-!
Bounds on candidates under the standard rules. Since no line costs more than it is worth, and the
first one less, every candidate scores something. A line takes no more bytes than the scan looks
through for its end.
-/
namespace TapeSalvage.Scan

open Amount
open Listing (Record Stored storedBytes)

theorem Passes.length_storedBytes_le {rules : Rules} {load : Nat} {trail final : Trail}
    {data : Bytes} {lines : List Stored} (h : Passes rules load trail data lines final) :
    (storedBytes lines).length ≤ (rules.lineReach.toNat + 4) * lines.length := by
  induction h with
  | close => exact Nat.zero_le _
  | @line trail _ line _ _ hline _ ih =>
    have hlength := line.length_bytes
    have hreach : line.text.length < rules.lineReach.toNat := hline.length_lt
    rw [Listing.storedBytes_cons, List.length_append, List.length_cons, Nat.mul_succ]
    omega

/-- What a candidate at an offset is, whose penalty and score are whole numbers. -/
structure IsPlausible (data : Bytes) (offset : Int) (candidate : Candidate) (penalty score : Int) :
    Prop where
  offset_eq : candidate.offset = offset
  load_eq : ∃ load : Nat, data.wordAt offset = .ok load ∧ candidate.loadAddress = load
  load_mem : 0x0400 ≤ candidate.loadAddress ∧ candidate.loadAddress ≤ 0x4000
  lines_mem : 3 ≤ candidate.lineCount ∧ candidate.lineCount ≤ 4999
  penalty_eq : candidate.penalty = .finite penalty
  penalty_mem : 0 ≤ penalty ∧ penalty ≤ min 400 (50 * candidate.lineCount - 10)
  score_eq : candidate.score = .finite score
  score_sum : score = 50 * candidate.lineCount +
    max 0 (40 - ((candidate.loadAddress - 0x1001).natAbs : Int) / 16) - penalty
  score_ge : 10 ≤ score
  closing : (data.drop (candidate.endOffset - 4).toNat).take 2 = [0, 0]
  end_ge : offset + 6 + 5 * candidate.lineCount ≤ candidate.endOffset
  end_le : candidate.endOffset ≤ offset + 6 + 516 * candidate.lineCount
  end_lt : candidate.endOffset < data.length

/-- Every candidate has lines enough for what it was charged, and ends inside the data behind a zero
pointer. -/
theorem exists_isPlausible_of_candidateAt {data : Bytes} {offset : Int} {candidate : Candidate}
    (h : candidateAt .standard data offset = some candidate) :
    ∃ penalty score, IsPlausible data offset candidate penalty score := by
  have hnonneg : 0 ≤ offset := by
    by_contra hnegative
    rw [candidateAt, if_pos (Int.not_le.mp hnegative)] at h
    contradiction
  obtain ⟨place, rfl⟩ := Int.eq_ofNat_of_zero_le hnonneg
  rw [candidateAt_natCast] at h
  obtain ⟨low, high, rest, final, hdrop, hlowest, hhighest, _, hfollow, hfew, rfl⟩ :=
    eq_candidate_of_judge _ _ _ _ h
  obtain ⟨lines, hpasses, hcount⟩ := (follow_eq_some_iff _ _ _ _).mp hfollow
  obtain ⟨penalty, hpenalty, hlow, hlimit, _, hbound⟩ :=
    hpasses.exists_isCharged (isCharged_start (word low high))
  obtain ⟨after, rfl, hafter⟩ := hpasses.exists_close
  have hlines : final.lines = lines.length := hpasses.lines_final.trans (Nat.zero_add _)
  have hdistance : final.distance = (storedBytes lines).length :=
    hpasses.distance_final.trans (Nat.zero_add _)
  have hleast := Listing.length_storedBytes lines
  have hmost : (storedBytes lines).length ≤ 516 * lines.length := hpasses.length_storedBytes_le
  have hscore := score_standard (word_lt low high) (hlines ▸ hcount) hpenalty hlow hlimit place
  have hclosing : data.drop (place + (final.distance + 2)) = 0 :: 0 :: after := by
    rw [hdistance]
    exact Bytes.drop_add_of_drop (low :: high :: storedBytes lines) hdrop
  have hsize := congrArg List.length hclosing
  rw [List.length_drop, List.length_cons, List.length_cons] at hsize
  have hthree : (3 : Int) ≤ final.lines := hfew
  have hcharged := hbound (by omega)
  have hbonus := standardBonus_mem (word low high)
  refine ⟨penalty, _, rfl, ⟨_, Bytes.wordAt_of_drop hdrop, rfl⟩, ⟨hlowest, hhighest⟩, ⟨hfew, ?_⟩,
    hpenalty, ⟨hlow, ?_⟩, hscore, rfl, ?_, ?_, ?_, ?_, ?_⟩
  · change (final.lines : Int) ≤ 4999
    change lines.length < 5000 at hcount
    omega
  · change penalty ≤ min 400 (50 * (final.lines : Int) - 10)
    omega
  · omega
  · have hplace : ((place : Int) + 2 + final.distance + 4 - 4).toNat =
        place + (final.distance + 2) := by omega
    change (data.drop ((place : Int) + 2 + final.distance + 4 - 4).toNat).take 2 = [0, 0]
    rw [hplace, hclosing]
    rfl
  · change (place : Int) + 6 + 5 * final.lines ≤ place + 2 + final.distance + 4
    omega
  · change (place : Int) + 2 + final.distance + 4 ≤ place + 6 + 516 * final.lines
    omega
  · change (place : Int) + 2 + final.distance + 4 < data.length
    omega

/-- Lines that cost as much as lines can: no pointer leads to the next line or above the one before
it, and the numbers descend. -/
def costlyLines : List Stored :=
  threeLines.reverse.map fun line => line.withPointer 0x02 0x00 (by decide)

theorem exists_isPlausible_costlyLines :
    candidateAt .standard (programStream [0x33] 0x01 0x30 costlyLines [0xFF, 0xFF, 0x55]) 1 =
        some ⟨1, 10, 0x3001, 25, 3, 140⟩ ∧
      ∃ penalty score, IsPlausible
        (programStream [0x33] 0x01 0x30 costlyLines [0xFF, 0xFF, 0x55]) 1
        ⟨1, 10, 0x3001, 25, 3, 140⟩ penalty score := by
  have hcandidate :
      candidateAt .standard (programStream [0x33] 0x01 0x30 costlyLines [0xFF, 0xFF, 0x55]) 1 =
        some ⟨1, 10, 0x3001, 25, 3, 140⟩ := by decide +kernel
  exact ⟨hcandidate, exists_isPlausible_of_candidateAt hcandidate⟩

end TapeSalvage.Scan
