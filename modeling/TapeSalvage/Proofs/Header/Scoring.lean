import Mathlib.Data.List.Induction
import TapeSalvage.Proofs.Amount.Order
import TapeSalvage.Proofs.Header.Location
import TapeSalvage.Proofs.Program.Assembling

/-!
The best header by its score. Where nothing is divided by zero every score is defined, so the search
holds the first of the best headers that it has passed and gives it up only for a better one. Under
the standard rules a header that is not turned down declares a length that a program can have.
-/
namespace TapeSalvage.Header

open Amount

/-- What a payload holds as a header is small, whatever it is. -/
theorem natAbs_length_le_of_parse {payload : Bytes} {header : Header}
    (h : parse payload = .ok header) : header.length.natAbs ≤ exactLimit := by
  have hlimit := exactLimit_eq
  obtain ⟨hstart, hend⟩ := address_lt_of_parse h
  unfold length
  omega

theorem countP_isNameByte_le {header : Header} (h : header.rawName.length = nameSize) :
    header.rawName.countP isNameByte ≤ 16 := by
  have hcount : header.rawName.countP isNameByte ≤ header.rawName.length := List.countP_le_length
  rwa [h] at hcount

theorem placeBonus_ne_undefined {rules : Rules} (h : rules.nearnessDivisor.IsCount) (start : ℕ) :
    placeBonus rules start ≠ .undefined := by
  unfold placeBonus
  split
  · have hshare := zero_atMost_share
      (zero_atMost_abs (ofRat_ne_undefined (((start : ℤ) - rules.usualStart : ℤ) : ℚ))) h.isPositive
    have hnearness := sub_ne_undefined (IsFinite.ne_undefined ⟨rules.nearnessBonus, rfl⟩)
      hshare.ne_undefined.2 (Or.inl ⟨rules.nearnessBonus, rfl⟩)
    exact add_ne_undefined (IsFinite.ne_undefined ⟨rules.windowBonus, rfl⟩)
      (zero_atMost_greater hnearness).ne_undefined.2 (Or.inl ⟨rules.windowBonus, rfl⟩)
  · exact ofRat_ne_undefined _

/-- The score of a payload is defined if nothing is divided by zero. -/
theorem points_ne_undefined {rules : Rules} (hnearness : rules.nearnessDivisor.IsCount)
    (hlength : rules.lengthDivisor.IsCount) {payload : Bytes} {header : Header}
    (h : parse payload = .ok header) : points rules header ≠ .undefined := by
  have hcount := countP_isNameByte_le (length_rawName_of_parse h)
  have hname : (ofInt (header.rawName.countP isNameByte)).IsFinite := by
    have hlimit := exactLimit_eq
    exact ⟨_, ofInt_of_small (by omega)⟩
  obtain ⟨share, hshare⟩ := isFinite_share (natAbs_length_le_of_parse h) hlength
  have hbonus := add_ne_undefined (placeBonus_ne_undefined hnearness header.startAddress)
    hname.ne_undefined (Or.inr hname)
  unfold points
  rw [hshare, lesser_finite]
  exact add_ne_undefined hbonus Amount.noConfusion (Or.inr ⟨_, rfl⟩)

/-- Whether a header is the first of the best ones: none scores more, and those before it score
less. -/
structure IsFirstBest (scores : List (Option Scored)) (index : Nat) (best : Scored) : Prop where
  found : scores[index]? = some (some best)
  unbeaten : ∀ (place : Nat) (rival : Scored), scores[place]? = some (some rival) →
    rival.score.AtMost best.score ∧ (place < index → rival.score.lt best.score = true)

section

variable {scores : List (Option Scored)} {index : Nat} {best next : Scored}

theorem IsFirstBest.lt_length (h : IsFirstBest scores index best) : index < scores.length :=
  (List.getElem?_eq_some_iff.mp h.found).1

theorem IsFirstBest.ne_undefined (h : IsFirstBest scores index best) : best.score ≠ .undefined :=
  (h.unbeaten index best h.found).1.ne_undefined.1

/-- A result that scores no more than the best header is passed over. -/
theorem IsFirstBest.append (h : IsFirstBest scores index best) {result : Option Scored}
    (hresult : ∀ rival, result = some rival → rival.score.AtMost best.score) :
    IsFirstBest (scores ++ [result]) index best where
  found := by rw [List.getElem?_append_left h.lt_length, h.found]
  unbeaten place rival hrival := by
    have hindex := h.lt_length
    by_cases hplace : place < scores.length
    · rw [List.getElem?_append_left hplace] at hrival
      exact h.unbeaten place rival hrival
    · rw [List.getElem?_append_right (Nat.le_of_not_lt hplace)] at hrival
      refine ⟨hresult rival (List.mem_singleton.mp (List.mem_of_getElem? hrival)).symm, ?_⟩
      omega

/-- A header that scores more than all before it is the first of the best ones. -/
theorem isFirstBest_append_of_forall_lt (hnext : next.score ≠ .undefined)
    (h : ∀ rival, some rival ∈ scores → rival.score.lt next.score = true) :
    IsFirstBest (scores ++ [some next]) scores.length next where
  found := List.getElem?_concat_length
  unbeaten place rival hrival := by
    by_cases hplace : place < scores.length
    · rw [List.getElem?_append_left hplace] at hrival
      have hless := h rival (List.mem_of_getElem? hrival)
      exact ⟨Or.inl hless, fun _ => hless⟩
    · rw [List.getElem?_append_right (Nat.le_of_not_lt hplace)] at hrival
      obtain rfl := Option.some.inj (List.mem_singleton.mp (List.mem_of_getElem? hrival))
      refine ⟨atMost_self hnext, ?_⟩
      omega

theorem best?_append (scores : List (Option Scored)) (result : Option Scored) :
    best? (scores ++ [result]) = keepBest (best? scores) (scores.length, result) := by
  unfold best?
  rw [List.zipIdx_append, List.map_append, List.foldl_append, Nat.zero_add]
  rfl

/-- Among defined scores there is no best header if all payloads were turned down, and else it is
the first of the best ones. -/
theorem best?_cases (hdefined : ∀ scored, some scored ∈ scores → scored.score ≠ .undefined) :
    (best? scores = none ∧ ∀ result ∈ scores, result = none) ∨
      ∃ index best, best? scores = some (index, best) ∧ IsFirstBest scores index best := by
  -- The search comes to the last score at its end, so that one is taken off first.
  induction scores using List.reverseRecOn with
  | nil => exact Or.inl ⟨rfl, fun _ hresult => absurd hresult List.not_mem_nil⟩
  | append_singleton before result ih =>
    have hbefore := ih fun scored hmem => hdefined scored (List.mem_append_left _ hmem)
    rw [best?_append]
    cases result with
    | none =>
      rcases hbefore with ⟨hnone, hall⟩ | ⟨index, best, hbest, hfirst⟩
      · left
        refine ⟨hnone, ?_⟩
        intro other hother
        rcases List.mem_append.mp hother with hold | hnew
        · exact hall other hold
        · exact List.mem_singleton.mp hnew
      · right
        exact ⟨index, best, hbest, hfirst.append fun _ hrival => by contradiction⟩
    | some next =>
      have hnext := hdefined next (by simp)
      right
      rcases hbefore with ⟨hnone, hall⟩ | ⟨index, best, hbest, hfirst⟩
      · rw [hnone]
        refine ⟨before.length, next, rfl, isFirstBest_append_of_forall_lt hnext ?_⟩
        intro rival hrival
        cases hall _ hrival
      · rw [hbest]
        by_cases hless : best.score.lt next.score = true
        · refine ⟨before.length, next, if_pos hless, isFirstBest_append_of_forall_lt hnext ?_⟩
          intro rival hrival
          obtain ⟨place, hplace⟩ := List.mem_iff_getElem?.mp hrival
          exact (hfirst.unbeaten place rival hplace).1.trans_lt hless
        · refine ⟨index, best, if_neg hless, hfirst.append ?_⟩
          intro rival hrival
          obtain rfl := Option.some.inj hrival
          exact atMost_of_not_lt hnext hfirst.ne_undefined hless

end

/-- What a start address earns by its place under the standard rules. -/
theorem exists_placeBonus_standard {start : Nat} (hstart : start < 65536) :
    ∃ bonus : Int, placeBonus .standard start = .finite bonus ∧ 0 ≤ bonus ∧ bonus ≤ 40 := by
  have hlimit := exactLimit_eq
  unfold placeBonus
  split
  · have hdistance : (ofInt (start - Rules.standard.usualStart)).abs =
        .finite ((((start : Int) - 0x1001).natAbs : Int) : ℚ) := by
      change (ofInt (start - 0x1001)).abs = _
      rw [ofInt_of_small (by omega), abs_finite]
    have hshare : share (.finite ((((start : Int) - 0x1001).natAbs : Int) : ℚ)) (.ofInt 32) =
        .finite (((((start : Int) - 0x1001).natAbs : Int) / 32 : Int) : ℚ) :=
      share_two_pow (by omega) (show 5 ≤ 1000 by decide)
    rw [hdistance]
    change ∃ bonus : Int, Amount.finite ((20 : Int) : ℚ) +
      greater 0 (.finite ((20 : Int) : ℚ) - share _ (.ofInt 32)) = _ ∧ _
    rw [hshare, finite_sub_finite (by omega), zero_eq, greater_finite, ← Int.cast_zero,
      ← Int.cast_max, finite_add_finite (by omega)]
    exact ⟨_, rfl, by omega, by omega⟩
  · exact ⟨0, zero_eq, by omega, by omega⟩

theorem length_of_isCredible {rules : Rules} {header : Header}
    (h : isCredible rules header = true) :
    rules.shortest ≤ header.length ∧ header.length ≤ rules.longest := by
  simp only [isCredible, Bool.and_eq_true, decide_eq_true_eq] at h
  obtain ⟨⟨⟨_, hshortest⟩, hlongest⟩, _⟩ := h
  exact ⟨hshortest, hlongest⟩

/-- The place earns at most 40 points, the name a point for each of its characters, and the length
at most 40 points. -/
theorem exists_points_standard {header : Header} (hstart : header.startAddress < 65536)
    (hname : header.rawName.length = nameSize) (h : isCredible .standard header = true) :
    ∃ value : Int, points .standard header = .finite value ∧ 0 ≤ value ∧ value ≤ 96 := by
  have hlimit := exactLimit_eq
  obtain ⟨bonus, hbonus, hnonneg, hle⟩ := exists_placeBonus_standard hstart
  obtain ⟨hshortest, hlongest⟩ := length_of_isCredible h
  change 512 ≤ header.length at hshortest
  change header.length ≤ 32768 at hlongest
  have hcount := countP_isNameByte_le hname
  have hshare : share (.ofInt header.length) (.ofInt 512) =
      .finite ((header.length / 512 : Int) : ℚ) := by
    rw [ofInt_of_small (by omega)]
    exact share_two_pow (by omega) (show 9 ≤ 1000 by decide)
  change ∃ value : Int, placeBonus .standard header.startAddress +
    .ofInt (header.rawName.countP isNameByte) +
      lesser (.finite ((40 : Int) : ℚ)) (share (.ofInt header.length) (.ofInt 512)) = _ ∧ _
  rw [hbonus, hshare, ofInt_of_small (by omega), lesser_finite, ← Int.cast_min,
    finite_add_finite (by omega), finite_add_finite (by omega)]
  exact ⟨_, rfl, by omega, by omega⟩

/-- A header that is not turned down under the standard rules declares a program that is
assembled. -/
theorem exists_assemble_of_isCredible {header : Header} (h : isCredible .standard header = true)
    (payloads : List Bytes) :
    ∃ assembly,
      Program.assemble Program.lengthLimit header.startAddress header.endAddress payloads =
      .ok assembly := by
  have hlimit := exactLimit_eq
  obtain ⟨hshortest, hlongest⟩ := length_of_isCredible h
  change 512 ≤ (header.endAddress : Int) - header.startAddress at hshortest
  change (header.endAddress : Int) - header.startAddress ≤ 32768 at hlongest
  apply Program.exists_assemble
  · omega
  · unfold Program.lengthLimit
    omega
  · omega

/-- The scores are defined if nothing is divided by zero. -/
theorem ne_undefined_of_mapM_score {rules : Rules} {blocks : List Block}
    {scores : List (Option Scored)} (hnearness : rules.nearnessDivisor.IsCount)
    (hlength : rules.lengthDivisor.IsCount)
    (h : (blocks.mapM fun block => score rules block.payload) = .ok scores) {scored : Scored}
    (hmem : some scored ∈ scores) : scored.score ≠ .undefined := by
  obtain ⟨index, hindex⟩ := List.mem_iff_getElem?.mp hmem
  obtain ⟨block, _, hscore⟩ := exists_of_mapM_eq_ok h hindex
  obtain ⟨header, hparse, _, rfl⟩ := score_eq_some_iff.mp hscore
  exact points_ne_undefined hnearness hlength hparse

/-- What is scored under the standard rules has from 0 to 96 points, and its program is
assembled. -/
theorem exists_total_of_score_standard {payload : Bytes} {scored : Scored}
    (h : score .standard payload = .ok (some scored)) :
    ∃ total : Int, scored.score = .finite total ∧ 0 ≤ total ∧ total ≤ 96 ∧
      ∀ payloads, ∃ assembly, Program.assemble Program.lengthLimit scored.header.startAddress
        scored.header.endAddress payloads = .ok assembly := by
  obtain ⟨header, hparse, hcredible, rfl⟩ := score_eq_some_iff.mp h
  obtain ⟨total, htotal, hnonneg, hle⟩ := exists_points_standard (address_lt_of_parse hparse).1
    (length_rawName_of_parse hparse) hcredible
  exact ⟨total, htotal, hnonneg, hle, exists_assemble_of_isCredible hcredible⟩

/-- The header is missing exactly if every payload is turned down, and else it is the first of those
that score best. Under the standard rules the program that it declares can be assembled. -/
theorem locate_scored {rules : Rules} {blocks : List Block} (hne : blocks ≠ [])
    (hlong : ∀ block ∈ blocks, size ≤ block.payload.length)
    (hnearness : rules.nearnessDivisor.IsCount) (hlength : rules.lengthDivisor.IsCount) :
    ((∃ fault, locate .scored rules blocks = .error fault ∧ fault.kind = .exhaustion ∧
        ∃ step, fault.origin? = some (.header, step)) ↔
      ∀ block ∈ blocks, score rules block.payload = .ok none) ∧
    ((∃ block ∈ blocks, score rules block.payload ≠ .ok none) →
      ∃ location block best, locate .scored rules blocks = .ok location ∧
        blocks[location.index]? = some block ∧ score rules block.payload = .ok (some best) ∧
        location.header = best.header ∧ location.score = some best.score ∧
        best.score ≠ .undefined ∧
        (∀ place other rival, blocks[place]? = some other →
          score rules other.payload = .ok (some rival) →
          rival.score.AtMost best.score ∧
            (place < location.index → rival.score.lt best.score = true)) ∧
        location.payloads = (blocks.drop (location.index + 1)).map (·.payload) ∧
        (rules = .standard → ∃ total : Int, best.score = .finite total ∧ 0 ≤ total ∧ total ≤ 96 ∧
          ∃ assembly, Program.assemble Program.lengthLimit location.header.startAddress
            location.header.endAddress location.payloads = .ok assembly)) := by
  obtain ⟨scores, hscores⟩ := exists_scores_of_length rules hlong
  have hdefined : ∀ scored, some scored ∈ scores → scored.score ≠ .undefined :=
    fun _ hmem => ne_undefined_of_mapM_score hnearness hlength hscores hmem
  have hlocate := locate_of_scores hne hscores
  rcases best?_cases hdefined with ⟨hnone, hall⟩ | ⟨index, best, hbest, hfirst⟩
  · have hdown : ∀ block ∈ blocks, score rules block.payload = .ok none := by
      intro block hmem
      obtain ⟨index, hindex⟩ := List.mem_iff_getElem?.mp hmem
      obtain ⟨result, hresult, hscore⟩ := exists_value_of_mapM_eq_ok hscores hindex
      rw [hscore, hall result (List.mem_of_getElem? hresult)]
    rw [hnone] at hlocate
    refine ⟨⟨fun _ => hdown, fun _ => ⟨.headerMissing, hlocate, rfl, _, rfl⟩⟩, ?_⟩
    rintro ⟨block, hmem, hup⟩
    exact absurd (hdown block hmem) hup
  · obtain ⟨block, hblock, hscore⟩ := exists_of_mapM_eq_ok hscores hfirst.found
    rw [hbest] at hlocate
    refine ⟨⟨?_, ?_⟩, ?_⟩
    · rintro ⟨fault, hfault, _⟩
      rw [hlocate] at hfault
      contradiction
    · intro hdown
      rw [hdown block (List.mem_of_getElem? hblock)] at hscore
      cases Except.ok.inj hscore
    · rintro -
      refine ⟨_, block, best, hlocate, hblock, hscore, rfl, rfl, hfirst.ne_undefined, ?_, rfl, ?_⟩
      · intro place other rival hother hrival
        obtain ⟨result, hresult, hagain⟩ := exists_value_of_mapM_eq_ok hscores hother
        obtain rfl := Except.ok.inj (hagain.symm.trans hrival)
        exact hfirst.unbeaten place rival hresult
      · rintro rfl
        obtain ⟨total, htotal, hnonneg, hle, hassemble⟩ := exists_total_of_score_standard hscore
        exact ⟨total, htotal, hnonneg, hle, hassemble _⟩

def junkFirst : List Block :=
  let junk : Bytes := List.replicate 21 0
  let header : Bytes :=
    [1, 0x01, 0x10, 0x01, 0x14, 0x50, 0x52, 0x4F, 0x47] ++ List.replicate 12 0x20
  let program : Bytes := List.replicate 21 0x11
  [⟨.a, 9, junk, 0, true⟩, ⟨.a, 211, header, 0, true⟩, ⟨.a, 413, program, 0, true⟩,
    ⟨.a, 615, header, 0, true⟩]

theorem locate_scored_junkFirst :
    ∃ location, locate .scored .standard junkFirst = .ok location ∧ location.index = 1 ∧
      location.score = some (.finite 58) ∧
      ∃ assembly, Program.assemble Program.lengthLimit location.header.startAddress
        location.header.endAddress location.payloads = .ok assembly := by
  have hup : ∃ block ∈ junkFirst, score .standard block.payload ≠ .ok none := by
    refine ⟨junkFirst[1], List.getElem_mem _, ?_⟩
    intro hnone
    cases Except.ok.inj hnone
  obtain ⟨location, block, best, hlocate, _, _, _, _, _, _, _, hstandard⟩ :=
    (@locate_scored .standard junkFirst (by decide) (by decide) ⟨32, by decide, rfl⟩
      ⟨512, by decide, rfl⟩).2 hup
  have hfields : ((locate .scored .standard junkFirst).toOption.map fun location =>
      (location.index, location.score)) = some (1, some (.finite 58)) := by decide +kernel
  rw [hlocate] at hfields
  obtain ⟨hindex, hscore⟩ := Prod.mk.inj (Option.some.inj hfields)
  obtain ⟨_, _, _, _, hassemble⟩ := hstandard rfl
  exact ⟨location, hlocate, hindex, hscore, hassemble⟩

end TapeSalvage.Header
