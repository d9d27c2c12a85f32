import TapeSalvage.Proofs.Listing.Damage
import TapeSalvage.Proofs.Scan.Charges
import TapeSalvage.Proofs.Scan.Checked
import TapeSalvage.Proofs.Scan.Foremost

/-!
Programs of which some pointers were damaged. The scan goes by the zero bytes, so it still takes
every line; what it charges for a damaged line is bounded, and so is what it charges for the line
behind it, whose pointer may seem to stall. A few damaged lines never make it give a program up.
-/
namespace TapeSalvage.Listing

/-- Whether every line points to the record behind it, where the first one stands at an address. -/
def IsLinked : (address : Nat) → List Stored → Prop
  | _, [] => True
  | address, line :: rest =>
    line.pointer = address + line.bytes.length ∧ IsLinked (address + line.bytes.length) rest

/-- A program without faults for the scan: linked lines whose numbers do not descend. -/
structure IsOrderly (load : Nat) (lines : List Stored) : Prop where
  linked : IsLinked load lines
  ascending : (lines.map (·.number)).Pairwise (· ≤ ·)
  number_le : ∀ line ∈ lines, line.number ≤ 63999
  length_le : ∀ line ∈ lines, line.text.length ≤ 511

end TapeSalvage.Listing

namespace TapeSalvage.Scan

open Amount
open Listing (Damage IsLinked IsOrderly Stored storedBytes)

/-- What one more line in order costs. -/
theorem charge_standard_of_le (load : Nat) {trail : Trail} {penalty : Int}
    (hpenalty : trail.penalty = .finite penalty) (hnonneg : 0 ≤ penalty) (hsmall : penalty ≤ 400)
    {line : Nat} (hline : trail.lastLine ≤ line) (pointer actual : Nat) :
    ∃ cost : Int, 0 ≤ cost ∧ cost ≤ 25 ∧ (pointer = load + actual → cost = 0) ∧
      trail.charge .standard load pointer line actual =
        .finite ((penalty + cost + if pointer ≤ trail.lastPointer then 15 else 0 : Int) : ℚ) := by
  have h := charge_standard load hpenalty hnonneg hsmall line pointer actual
  rwa [if_neg (Nat.not_lt.mpr hline), Int.add_zero] at h

/-- Whether a trail has cost at most so much, together with what the pointer of its last line may
still cost: if it leads beyond the next record, the next pointer may seem to stall. -/
def CostsAtMost (load : Nat) (trail : Trail) (bound : Int) : Prop :=
  ∃ penalty : Int, trail.penalty = .finite penalty ∧ 0 ≤ penalty ∧
    penalty + (if trail.lastPointer ≤ load + trail.distance then 0 else 15) ≤ bound

theorem costsAtMost_start (load : Nat) : CostsAtMost load (.start load) 0 := by
  refine ⟨0, ofInt_of_small (by decide), Int.le_refl 0, ?_⟩
  change 0 + (if load ≤ load then 0 else 15) ≤ (0 : Int)
  rw [if_pos (Nat.le_refl load)]
  exact Int.le_refl 0

section

variable {load : Nat} {trail : Trail} {bound : Int} {line : Stored}

/-- A line that points to the record behind it costs nothing that was not allowed for. -/
theorem CostsAtMost.pass_linked (h : CostsAtMost load trail bound) (hbound : bound ≤ 400)
    (hline : trail.lastLine ≤ line.number)
    (hpointer : line.pointer = load + trail.distance + line.bytes.length) :
    CostsAtMost load (trail.pass .standard load (line.record trail.distance)) bound := by
  obtain ⟨penalty, hpenalty, hnonneg, hle⟩ := h
  obtain ⟨cost, _, _, hzero, hcharge⟩ := charge_standard_of_le load hpenalty hnonneg
    (by split at hle <;> omega) hline line.pointer (trail.distance + 5 + line.text.length)
  have hlength := line.length_bytes
  have hcost := hzero (by omega)
  refine ⟨_, hcharge, by split <;> omega, ?_⟩
  change penalty + cost + (if line.pointer ≤ trail.lastPointer then 15 else 0) +
    (if line.pointer ≤ load + (trail.distance + 5 + line.text.length) then 0 else 15) ≤ bound
  rw [if_pos (show line.pointer ≤ load + (trail.distance + 5 + line.text.length) by omega)]
  split at hle <;> split <;> omega

/-- A line with any pointer costs at most 55 more, with what it leaves to the next line. -/
theorem CostsAtMost.pass (h : CostsAtMost load trail bound) (hbound : bound ≤ 400)
    (hline : trail.lastLine ≤ line.number) :
    CostsAtMost load (trail.pass .standard load (line.record trail.distance)) (bound + 55) := by
  obtain ⟨penalty, hpenalty, hnonneg, hle⟩ := h
  obtain ⟨cost, hlow, hhigh, _, hcharge⟩ := charge_standard_of_le load hpenalty hnonneg
    (by split at hle <;> omega) hline line.pointer (trail.distance + 5 + line.text.length)
  refine ⟨_, hcharge, by split <;> omega, ?_⟩
  split at hle <;> split <;> split <;> omega

theorem mayPass_of_costsAtMost
    (h : CostsAtMost load (trail.pass .standard load (line.record trail.distance)) bound)
    (hbound : bound ≤ 400) (hnumber : line.number ≤ 63999) (hlength : line.text.length ≤ 511) :
    MayPass .standard load trail (line.record trail.distance) := by
  obtain ⟨penalty, hpenalty, _, hle⟩ := h
  refine ⟨Int.ofNat_le.mpr hnumber, Nat.lt_succ_of_le hlength, ?_⟩
  rw [hpenalty, penaltyLimit_standard, finite_lt_finite, decide_eq_true_eq, Int.cast_lt]
  split at hle <;> omega

end

theorem Trail.distance_pass (rules : Rules) (load : Nat) (trail : Trail) (line : Stored) :
    (trail.pass rules load (line.record trail.distance)).distance =
      trail.distance + line.bytes.length := by
  have hbytes := line.length_bytes
  change trail.distance + 5 + line.text.length = _
  omega

theorem Passes.cons {rules : Rules} {load : Nat} {trail final : Trail} {line : Stored}
    {lines : List Stored} {rest : Bytes}
    (hline : MayPass rules load trail (line.record trail.distance))
    (h : Passes rules load (trail.pass rules load (line.record trail.distance))
      (storedBytes lines ++ rest) lines final) :
    Passes rules load trail (storedBytes (line :: lines) ++ rest) (line :: lines) final := by
  rw [Listing.storedBytes_cons, List.append_assoc]
  exact .line hline h

/-- The lines of an orderly program are passed to their end in spite of some damage, and what this
costs is bounded by the damage. -/
theorem exists_passes_of_damage {load count : Nat} {lines others : List Stored}
    (h : Damage count lines others) {trail : Trail} {bound : Int}
    (hcosts : CostsAtMost load trail bound) (hbound : bound + 55 * count ≤ 400)
    (hlinked : IsLinked (load + trail.distance) lines)
    (hascending : (trail.lastLine :: lines.map (·.number)).Pairwise (· ≤ ·))
    (hnumber : ∀ line ∈ lines, line.number ≤ 63999)
    (hlength : ∀ line ∈ lines, line.text.length ≤ 511) {after : Bytes} (hafter : 3 ≤ after.length) :
    ∃ final, Passes .standard load trail (storedBytes others ++ 0 :: 0 :: after) others final ∧
      CostsAtMost load final (bound + 55 * count) := by
  induction h generalizing trail bound with
  | nil =>
    refine ⟨trail, .close hafter, ?_⟩
    simpa using hcosts
  | @keep line count lines others _ ih =>
    rw [List.map_cons, List.pairwise_cons] at hascending
    rw [List.forall_mem_cons] at hnumber hlength
    have hnext := hcosts.pass_linked (by omega) (hascending.1 _ List.mem_cons_self) hlinked.1
    have hpass := mayPass_of_costsAtMost hnext (by omega) hnumber.1 hlength.1
    have hplace : load + (trail.pass .standard load (line.record trail.distance)).distance =
        load + trail.distance + line.bytes.length := by
      rw [Trail.distance_pass, Nat.add_assoc]
    obtain ⟨final, hpasses, hfinal⟩ :=
      ih hnext hbound (hplace ▸ hlinked.2) hascending.2 hnumber.2 hlength.2
    exact ⟨final, hpasses.cons hpass, hfinal⟩
  | @replace line low high hne count lines others _ ih =>
    rw [List.map_cons, List.pairwise_cons] at hascending
    rw [List.forall_mem_cons] at hnumber hlength
    have hnext : CostsAtMost load (trail.pass .standard load
        ((line.withPointer low high hne).record trail.distance)) (bound + 55) :=
      hcosts.pass (by omega) (hascending.1 _ List.mem_cons_self)
    have hpass := mayPass_of_costsAtMost hnext (by omega) hnumber.1 hlength.1
    have hplace : load + (trail.pass .standard load
        ((line.withPointer low high hne).record trail.distance)).distance =
          load + trail.distance + line.bytes.length := by
      rw [Trail.distance_pass, line.length_bytes_withPointer, Nat.add_assoc]
    obtain ⟨final, hpasses, hfinal⟩ :=
      ih hnext (by omega) (hplace ▸ hlinked.2) hascending.2 hnumber.2 hlength.2
    have hsum : bound + 55 + 55 * (count : Int) = bound + 55 * ((count + 1 : Nat) : Int) := by omega
    exact ⟨final, hpasses.cons hpass, hsum ▸ hfinal⟩

/-- A search finds something that scores no less than the candidate at any offset. -/
theorem exists_search_of_candidateAt {data : Bytes} {offset : Nat} {candidate : Candidate}
    {score : Int} (hoffset : offset < data.length)
    (h : candidateAt .standard data offset = some candidate)
    (hscore : candidate.score = .finite score) :
    ∃ (best : Candidate) (total : Int), search .standard data = .ok best ∧
      best.score = .finite total ∧ score ≤ total := by
  have hend : offset < searchEnd .standard data := by
    change offset < ((data.length : Int) - 0).toNat
    omega
  obtain ⟨best, hbest⟩ := exists_search?_of_candidateAt hend h
  obtain ⟨place, _, _, hplace⟩ := exists_candidateAt_of_search? hbest
  obtain ⟨total, htotal⟩ := exists_score_of_candidateAt hplace
  have hle := atMost_of_search? hbest (by simp [htotal]) hend h (by simp [hscore])
  rw [hscore, htotal, atMost_finite_iff, Int.cast_le] at hle
  exact ⟨best, total, (search_eq_ok_iff _ _ _).mpr hbest, htotal, hle⟩

/-- A stream with a program in it: its load address, its lines and its closing record. -/
def programStream (before : Bytes) (low high : UInt8) (lines : List Stored) (after : Bytes) :
    Bytes :=
  before ++ low :: high :: (storedBytes lines ++ 0 :: 0 :: after)

section

variable {low high : UInt8} {lines others : List Stored} {count : Nat}

theorem exists_candidate_of_damage (hlow : 0x0400 ≤ word low high) (hhigh : word low high ≤ 0x4000)
    (horderly : IsOrderly (word low high) lines) (hfew : 3 ≤ lines.length)
    (hmany : lines.length < 5000) (hdamage : Damage count lines others) (hcount : count ≤ 7)
    (before : Bytes) {after : Bytes} (hafter : 3 ≤ after.length) :
    ∃ penalty : Int, 0 ≤ penalty ∧ penalty ≤ 55 * count ∧
      candidateAt .standard (programStream before low high others after) before.length = some {
        offset := before.length
        score :=
          .finite ((50 * lines.length + standardBonus (word low high) - penalty : Int) : ℚ)
        loadAddress := word low high
        endOffset := before.length + 2 + (storedBytes lines).length + 4
        lineCount := lines.length
        penalty := .finite penalty } := by
  obtain ⟨final, hpasses, penalty, hpenalty, hnonneg, hle⟩ :=
    exists_passes_of_damage hdamage (costsAtMost_start (word low high)) (by omega) horderly.linked
      (List.pairwise_cons.mpr ⟨fun _ _ => Nat.zero_le _, horderly.ascending⟩)
      horderly.number_le horderly.length_le hafter
  have hbound : penalty ≤ 55 * count := by split at hle <;> omega
  have hlines : final.lines = lines.length := by
    rw [hpasses.lines_final, hdamage.length_eq]
    exact Nat.zero_add _
  have hdistance : final.distance = (storedBytes lines).length := by
    rw [hpasses.distance_final, hdamage.length_storedBytes]
    exact Nat.zero_add _
  have hfollow := (follow_eq_some_iff Rules.standard.recordLimit.toNat _ _ _).mpr
    ⟨others, hpasses, hdamage.length_eq ▸ hmany⟩
  have hscore : Rules.standard.lineWeight.times final.lines +
      closeness .standard (word low high) - final.penalty =
        .finite ((50 * lines.length + standardBonus (word low high) - penalty : Int) : ℚ) := by
    have h := score_standard (word_lt low high) (hlines ▸ hmany) hpenalty hnonneg (by omega)
      before.length
    rwa [hlines] at h
  have hlong : 9 ≤ (storedBytes others ++ 0 :: 0 :: after).length := by
    have hbytes := Listing.length_storedBytes others
    rw [hdamage.length_eq] at hbytes
    rw [List.length_append, List.length_cons, List.length_cons]
    omega
  have hload : ¬ ((word low high : Int) < Rules.standard.lowestLoad ∨
      Rules.standard.highestLoad < word low high) := by
    change ¬ ((word low high : Int) < 0x0400 ∨ (0x4000 : Int) < word low high)
    omega
  refine ⟨penalty, hnonneg, hbound, ?_⟩
  rw [candidateAt_natCast, programStream, List.drop_left, judge_of_length_le _ _ _ hlong,
    if_neg hload, hfollow]
  change (if (final.lines : Int) < 3 then none else _) = _
  rw [if_neg (by omega), Trail.candidate, hscore, hlines, hdistance, hpenalty]

/-- A program of which few pointers were damaged is a candidate with all its lines, and is charged
at most 55 for each of them. So what is found in the stream scores no less. -/
theorem search_of_damage (hlow : 0x0400 ≤ word low high) (hhigh : word low high ≤ 0x4000)
    (horderly : IsOrderly (word low high) lines) (hfew : 3 ≤ lines.length)
    (hmany : lines.length < 5000) (hdamage : Damage count lines others) (hcount : count ≤ 7)
    (before : Bytes) {after : Bytes} (hafter : 3 ≤ after.length) :
    (∃ (candidate : Candidate) (penalty score : Int),
      candidateAt .standard (programStream before low high others after) before.length =
        some candidate ∧
      candidate.offset = before.length ∧
      candidate.loadAddress = word low high ∧
      candidate.lineCount = lines.length ∧
      candidate.endOffset = before.length + 2 + (storedBytes lines).length + 4 ∧
      candidate.penalty = .finite penalty ∧ 0 ≤ penalty ∧ penalty ≤ 55 * count ∧
      candidate.score = .finite score ∧
      50 * lines.length + standardBonus (word low high) - 55 * count ≤ score) ∧
    ∃ (best : Candidate) (total : Int),
      search .standard (programStream before low high others after) = .ok best ∧
      best.score = .finite total ∧
      50 * lines.length + standardBonus (word low high) - 55 * count ≤ total := by
  obtain ⟨penalty, hnonneg, hbound, hcandidate⟩ :=
    exists_candidate_of_damage hlow hhigh horderly hfew hmany hdamage hcount before hafter
  refine ⟨⟨_, penalty, _, hcandidate, rfl, rfl, rfl, rfl, rfl, hnonneg, hbound, rfl, by omega⟩, ?_⟩
  obtain ⟨best, total, hsearch, htotal, hle⟩ :=
    exists_search_of_candidateAt (by simp [programStream]) hcandidate rfl
  exact ⟨best, total, hsearch, htotal, by omega⟩

end

def threeLines : List Stored :=
  [⟨0x07, 0x10, 10, 0, [0x80], by decide, by decide⟩,
    ⟨0x0D, 0x10, 20, 0, [0x80], by decide, by decide⟩,
    ⟨0x13, 0x10, 30, 0, [0x80], by decide, by decide⟩]

/-- The same lines, where the first pointer leads far beyond the program and the last one before
it. -/
def damagedLines : List Stored :=
  [⟨0xFF, 0xFF, 10, 0, [0x80], by decide, by decide⟩,
    ⟨0x0D, 0x10, 20, 0, [0x80], by decide, by decide⟩,
    ⟨0x01, 0x00, 30, 0, [0x80], by decide, by decide⟩]

theorem search_of_damage_threeLines :
    IsOrderly (word 0x01 0x10) threeLines ∧ Damage 2 threeLines damagedLines ∧
      ∃ (best : Candidate) (total : Int),
        search .standard (programStream [0x33] 0x01 0x10 damagedLines [0xFF, 0xFF, 0x55]) =
          .ok best ∧
        best.score = .finite total ∧ 80 ≤ total := by
  have horderly : IsOrderly (word 0x01 0x10) threeLines :=
    ⟨by simp [threeLines, IsLinked, Stored.pointer, Stored.bytes, word], by decide, by decide,
      by decide⟩
  have hdamage : Damage 2 threeLines damagedLines :=
    .replace _ 0xFF 0xFF (by decide) (.keep _ (.replace _ 0x01 0x00 (by decide) .nil))
  obtain ⟨best, total, hsearch, htotal, hle⟩ :=
    (search_of_damage (by decide) (by decide) horderly (by decide) (by decide) hdamage (by decide)
      [0x33] (show 3 ≤ [0xFF, 0xFF, 0x55].length by decide)).2
  exact ⟨horderly, hdamage, best, total, hsearch, htotal, hle⟩

end TapeSalvage.Scan
