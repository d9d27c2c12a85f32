import TapeSalvage.Proofs.Pulse.Bands

/-!
Clustering pulses of byte frames. The seeds fall into the short and the medium band only. The first
round draws exactly one centre out of the medium band, whether or not the two seeds there coincide,
and by a move that is too wide to end the rounds; then the centres are split.
-/
namespace TapeSalvage.Pulse

variable {short medium long jitter : Rat}

/-- Every value lies in one of the bands, and they are filled as frames fill them: eight values in
the short band and nine in the medium one to each value in the long one. -/
structure IsBalanced (short medium long jitter : Rat) (values : List Rat) : Prop where
  banded : IsBanded short medium long jitter values
  ranked : ∃ n, 0 < n ∧ values.length = 18 * n ∧
    values.countP (fun value => value ≤ short + jitter) = 8 * n ∧
    values.countP (fun value => value ≤ medium + jitter) = 17 * n

/-- What a bucket weighs that takes the whole long band and nothing of the short one. -/
theorem heavy_bucket_weight (hs : IsSpread short medium long jitter) (takes : Rat → Bool)
    (hshort : ∀ value, Near short jitter value → takes value = false)
    (hlong : ∀ value, Near long jitter value → takes value = true) (values : List Rat)
    (hvalues : IsBanded short medium long jitter values) :
    (4 * jitter + 1 / 10) * values.countP (fun value => value ≤ short + jitter) +
        (long - medium) * (values.length - values.countP (fun value => value ≤ medium + jitter)) ≤
      (values.filter takes).sum -
        (medium + 3 * jitter + 1 / 10) * (values.filter takes).length +
        (4 * jitter + 1 / 10) * values.length := by
  obtain ⟨hJ, hapart, hfar⟩ := hs
  induction values with
  | nil => simp
  | cons value rest ih =>
    have hrest := ih fun v hv => hvalues v (List.mem_cons_of_mem _ hv)
    rcases hvalues value (List.mem_cons_self ..) with hv | hv | hv
    · have hlow : value ≤ short + jitter := hv.2
      have hmid : value ≤ medium + jitter := by linarith
      rw [List.filter_cons_of_neg (by rw [hshort value hv]; simp),
        List.countP_cons_of_pos (by simpa using hlow),
        List.countP_cons_of_pos (by simpa using hmid)]
      push_cast [List.length_cons]
      linarith
    · have hlow : ¬ value ≤ short + jitter := by linarith [hv.1]
      have hmid : value ≤ medium + jitter := hv.2
      rw [List.countP_cons_of_neg (by simpa using hlow),
        List.countP_cons_of_pos (by simpa using hmid)]
      by_cases htakes : takes value = true
      · rw [List.filter_cons_of_pos htakes]
        push_cast [List.length_cons, List.sum_cons]
        linarith [hv.1]
      · rw [List.filter_cons_of_neg htakes]
        push_cast [List.length_cons]
        linarith
    · have hlow : ¬ value ≤ short + jitter := by linarith [hv.1]
      have hmid : ¬ value ≤ medium + jitter := by linarith [hv.1]
      rw [List.filter_cons_of_pos (hlong value hv), List.countP_cons_of_neg (by simpa using hlow),
        List.countP_cons_of_neg (by simpa using hmid)]
      push_cast [List.length_cons, List.sum_cons]
      linarith [hv.1]

/-- In a balanced list such a bucket draws its centre out of the medium band. -/
theorem heavy_mean (hs : IsSpread short medium long jitter) {values : List Rat}
    (hvalues : IsBalanced short medium long jitter values) (takes : Rat → Bool)
    (hshort : ∀ value, Near short jitter value → takes value = false)
    (hlong : ∀ value, Near long jitter value → takes value = true) (center : Rat) :
    medium + 3 * jitter + 1 / 10 ≤ meanOr center (values.filter takes) ∧
      meanOr center (values.filter takes) ≤ long + jitter := by
  obtain ⟨n, hn, hlength, hlow, hmid⟩ := hvalues.ranked
  have hsome : ∃ value ∈ values, ¬ value ≤ medium + jitter := by
    by_contra hnone
    push Not at hnone
    have hall : values.countP (fun value => value ≤ medium + jitter) = values.length :=
      List.countP_eq_length.mpr fun value hvalue => by simpa using hnone value hvalue
    omega
  obtain ⟨top, htop, habove⟩ := hsome
  obtain ⟨hJ, hapart, hfar⟩ := hs
  have htopLong : Near long jitter top := by
    rcases hvalues.banded top htop with hv | hv | hv
    · exact absurd (hv.2.trans (by linarith)) habove
    · exact absurd hv.2 habove
    · exact hv
  have hne : values.filter takes ≠ [] :=
    List.ne_nil_of_mem (List.mem_filter.mpr ⟨htop, hlong top htopLong⟩)
  have hpos := length_cast_pos hne
  rw [meanOr_of_ne_nil center hne]
  constructor
  · have hweight := heavy_bucket_weight ⟨hJ, hapart, hfar⟩ takes hshort hlong values hvalues.banded
    have hfull : (n : Rat) * (40 * jitter + 1) ≤ n * (long - medium) :=
      mul_le_mul_of_nonneg_left hfar (Nat.cast_nonneg n)
    rw [hlength, hlow, hmid] at hweight
    push_cast at hweight
    rw [le_div_iff₀ hpos]
    linarith
  · have hhigh := List.sum_le_card_nsmul (values.filter takes) (long + jitter) (by
      intro value hvalue
      rcases hvalues.banded value (List.mem_filter.mp hvalue).1 with hv | hv | hv
      · exact hv.2.trans (by linarith)
      · exact hv.2.trans (by linarith)
      · exact hv.2)
    rw [nsmul_eq_mul] at hhigh
    rw [div_le_iff₀ hpos]
    linarith

/-- Whichever centre takes the long band, the first round splits the two of the medium band. -/
theorem isSplit_of_heavy (hs : IsSpread short medium long jitter) {values order : List Rat}
    (hvalues : IsBalanced short medium long jitter values) {a b c : Rat} {light heavy : Nat}
    (ha : Near short jitter a) (hb : Near medium jitter b)
    (hshort : ∀ value, Near short jitter value → nearest value order = 0)
    (hmedium : ∀ value, Near medium jitter value → nearest value order ≠ 0)
    (hlong : ∀ value, Near long jitter value → nearest value order = heavy)
    (hne : light ≠ 0 ∧ heavy ≠ 0 ∧ light ≠ heavy) :
    IsSplit short medium long jitter (meanOr a (bucket values order 0))
      (meanOr b (bucket values order light)) (meanOr c (bucket values order heavy)) := by
  obtain ⟨hlow, hmid⟩ := near_means hvalues.banded ha hb hshort hmedium hlong hne
  have hhigh := heavy_mean hs hvalues (fun value => nearest value order == heavy)
    (fun value hv => by rw [hshort value hv, beq_eq_false_iff_ne]; exact Ne.symm hne.2.1)
    (fun value hv => by rw [hlong value hv, beq_self_eq_true]) c
  exact ⟨hlow, hmid, hhigh.1, hhigh.2⟩

/-- The first round leads from the seeds to split centres, by a move that is no end. -/
theorem first_round (hs : IsSpread short medium long jitter) {values : List Rat}
    (hvalues : IsBalanced short medium long jitter values) {a b c : Rat}
    (ha : Near short jitter a) (hb : Near medium jitter b) (hc : Near medium jitter c)
    (hbc : b ≤ c) :
    IsSettling short medium long jitter (recenter values [a, b, c]) ∧
      isSettled (1 / 1000000) [a, b, c] (recenter values [a, b, c]) = false := by
  obtain ⟨hJ, hapart, hfar⟩ := hs
  have hshort : ∀ value, Near short jitter value → nearest value [a, b, c] = 0 := by
    intro value hv
    have hab : |value - a| < |value - b| :=
      abs_lt_of_above (by linarith [ha.2, hb.1]) (by linarith [ha.1, hb.1, hv.2])
    have hac : |value - a| < |value - c| :=
      abs_lt_of_above (by linarith [ha.2, hc.1]) (by linarith [ha.1, hc.1, hv.2])
    rw [nearest_three, if_neg hab.not_gt, if_neg hac.not_gt]
  have hmedium : ∀ value, Near medium jitter value → nearest value [a, b, c] ≠ 0 := by
    intro value hv
    have hba : |value - b| < |value - a| :=
      abs_lt_of_below (by linarith [ha.2, hb.1]) (by linarith [ha.2, hb.2, hv.1])
    rw [nearest_three, if_pos hba]
    split <;> decide
  have hmove : ∀ before after : Rat, Near medium jitter before →
      medium + 3 * jitter + 1 / 10 ≤ after → ¬ |after - before| < 1 / 1000000 := by
    intro before after hbefore hafter hlt
    have := (abs_lt.mp hlt).2
    linarith [hbefore.2]
  rw [recenter_three, Bool.eq_false_iff, ne_eq, isSettled_three]
  -- Where the two seeds of the medium band coincide, the long band goes to the second centre.
  rcases hbc.lt_or_eq with hlt | rfl
  · have hlong : ∀ value, Near long jitter value → nearest value [a, b, c] = 2 := by
      intro value hv
      have hcb : |value - c| < |value - b| :=
        abs_lt_of_below hlt (by linarith [hc.2, hb.2, hv.1])
      have hca : |value - c| < |value - a| :=
        abs_lt_of_below (by linarith [ha.2, hc.1]) (by linarith [ha.2, hc.2, hv.1])
      rw [nearest_three, if_pos hcb, if_pos hca]
      simp
    have hsplit : IsSplit short medium long jitter (meanOr a (bucket values [a, b, c] 0))
        (meanOr b (bucket values [a, b, c] 1)) (meanOr c (bucket values [a, b, c] 2)) :=
      isSplit_of_heavy ⟨hJ, hapart, hfar⟩ hvalues ha hb hshort hmedium hlong (by decide)
    exact ⟨⟨_, _, _, hsplit, Or.inl rfl⟩, fun h => hmove _ _ hc hsplit.above h.2.2⟩
  · have hlong : ∀ value, Near long jitter value → nearest value [a, b, b] = 1 := by
      intro value hv
      have hba : |value - b| < |value - a| :=
        abs_lt_of_below (by linarith [ha.2, hb.1]) (by linarith [ha.2, hb.2, hv.1])
      rw [nearest_three, if_pos hba, if_neg (lt_irrefl _)]
    have hsplit : IsSplit short medium long jitter (meanOr a (bucket values [a, b, b] 0))
        (meanOr b (bucket values [a, b, b] 2)) (meanOr b (bucket values [a, b, b] 1)) :=
      isSplit_of_heavy ⟨hJ, hapart, hfar⟩ hvalues ha hb hshort hmedium hlong (by decide)
    exact ⟨⟨_, _, _, hsplit, Or.inr rfl⟩, fun h => hmove _ _ hb hsplit.above h.2.1⟩

/-- The first seed lies in the short band, the two others in order in the medium band. -/
theorem seeds_of_isBalanced (hs : IsSpread short medium long jitter) {values : List Rat}
    (hvalues : IsBalanced short medium long jitter values) :
    ∃ a b c, seeds values 3 = [a, b, c] ∧ Near short jitter a ∧ Near medium jitter b ∧
      Near medium jitter c ∧ b ≤ c := by
  obtain ⟨n, hn, hlength, hlow, hmid⟩ := hvalues.ranked
  obtain ⟨hJ, hapart, hfar⟩ := hs
  have hne : values ≠ [] := by
    rintro rfl
    simp at hlength
    omega
  obtain ⟨h₁, h₂, h₃, hseeds⟩ := seeds_three values hne
  have hbanded : ∀ i (hi : i < (ascending values).length),
      Near short jitter (ascending values)[i] ∨ Near medium jitter (ascending values)[i] ∨
        Near long jitter (ascending values)[i] := by
    intro i hi
    exact hvalues.banded _ ((ascending_perm values).mem_iff.mp (List.getElem_mem hi))
  have hshort : ∀ i (hi : i < (ascending values).length),
      (ascending values)[i] ≤ short + jitter ↔ i < 8 * n := by
    intro i hi
    rw [ascending_getElem_le_iff, hlow]
  have hmedium : ∀ i (hi : i < (ascending values).length),
      (ascending values)[i] ≤ medium + jitter ↔ i < 17 * n := by
    intro i hi
    rw [ascending_getElem_le_iff, hmid]
  have hinside : ∀ i (hi : i < (ascending values).length), 8 * n ≤ i → i < 17 * n →
      Near medium jitter (ascending values)[i] := by
    intro i hi hfrom hto
    have hnot := mt (hshort i hi).mp (by omega)
    have hle := (hmedium i hi).mpr hto
    rcases hbanded i hi with hv | hv | hv
    · exact absurd hv.2 hnot
    · exact hv
    · exact absurd (hv.1.trans hle) (by linarith)
  refine ⟨_, _, _, hseeds, ?_, hinside _ h₂ (by omega) (by omega),
    hinside _ h₃ (by omega) (by omega), ?_⟩
  · have hle := (hshort _ h₁).mpr (by omega)
    rcases hbanded _ h₁ with hv | hv | hv
    · exact hv
    · exact absurd (hv.1.trans hle) (by linarith)
    · exact absurd (hv.1.trans hle) (by linarith)
  · exact List.pairwise_iff_getElem.mp (ascending_pairwise values) _ _ h₂ h₃ (by omega)

/-- The centres of balanced values lie in ascending order in the places of the three bands. -/
theorem cluster_of_isBalanced (hs : IsSpread short medium long jitter) {values : List Rat}
    (hvalues : IsBalanced short medium long jitter values) (rounds : Nat) :
    ∃ a b c, cluster values 3 (rounds + 1) (1 / 1000000) = .ok [a, b, c] ∧
      IsSplit short medium long jitter a b c := by
  obtain ⟨a, b, c, hseeds, ha, hb, hc, hbc⟩ := seeds_of_isBalanced hs hvalues
  obtain ⟨hsplits, hmoves⟩ := first_round hs hvalues ha hb hc hbc
  have hsettled := isSettling_settle hs hvalues.banded (1 / 1000000) rounds hsplits
  have hne : values.isEmpty = false := by
    obtain ⟨n, hn, hlength, _⟩ := hvalues.ranked
    rw [List.isEmpty_eq_false_iff]
    rintro rfl
    simp at hlength
    omega
  have hsettle : settle values (1 / 1000000) (rounds + 1) (seeds values 3) =
      settle values (1 / 1000000) rounds (recenter values [a, b, c]) := by
    rw [hseeds, settle, hmoves]
    rfl
  obtain ⟨x, y, z, hsplit, horder⟩ := hsettled
  refine ⟨x, y, z, ?_, hsplit⟩
  have hxy : x < y := by linarith [hsplit.low.2, hsplit.mid.1, hs.apart, hs.nonneg]
  have hyz : y < z := by linarith [hsplit.mid.2, hsplit.above, hs.nonneg]
  have hsorted : [x, y, z].Pairwise (· ≤ ·) := by
    simp only [List.pairwise_cons, List.mem_cons, List.not_mem_nil, or_false, forall_eq_or_imp,
      forall_eq, IsEmpty.forall_iff, implies_true, List.Pairwise.nil, and_true]
    exact ⟨⟨hxy.le, (hxy.trans hyz).le⟩, hyz.le⟩
  rw [cluster, hne, hsettle]
  rcases horder with horder | horder
  · rw [horder, ascending_eq_of_perm (List.Perm.refl _) hsorted]
    rfl
  · rw [horder, ascending_eq_of_perm (List.Perm.cons x (List.Perm.swap y z [])) hsorted]
    rfl

end TapeSalvage.Pulse
