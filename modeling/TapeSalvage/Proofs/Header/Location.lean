import TapeSalvage.Header.Locate
import TapeSalvage.Proofs.Fault.Steps

/-!
Where a header is found. Payloads that hold the fields of a header can be read and scored. Whatever
the strategy, the header is read from one of the blocks, and the payloads that come with it are
those of the blocks behind that one.
-/
namespace TapeSalvage.Header

/-- The best header is the one that was held before or one of those that were compared. -/
theorem mem_of_foldl_keepBest {best : Option (Nat × Scored)} {pairs : List (Nat × Option Scored)}
    {index : Nat} {scored : Scored} (h : pairs.foldl keepBest best = some (index, scored)) :
    best = some (index, scored) ∨ (index, some scored) ∈ pairs := by
  induction pairs generalizing best with
  | nil => exact Or.inl h
  | cons next rest ih =>
    rw [List.foldl_cons] at h
    rcases ih h with hkept | hmem
    · obtain ⟨place, result⟩ := next
      cases result with
      | none => exact Or.inl hkept
      | some challenger =>
        cases best with
        | none =>
          obtain ⟨rfl, rfl⟩ := Prod.mk.inj (Option.some.inj hkept)
          exact Or.inr (List.mem_cons_self ..)
        | some holder =>
          unfold keepBest at hkept
          dsimp only at hkept
          split at hkept
          · obtain ⟨rfl, rfl⟩ := Prod.mk.inj (Option.some.inj hkept)
            exact Or.inr (List.mem_cons_self ..)
          · exact Or.inl hkept
    · exact Or.inr (List.mem_cons_of_mem _ hmem)

theorem getElem?_of_best? {scores : List (Option Scored)} {index : Nat} {scored : Scored}
    (h : best? scores = some (index, scored)) : scores[index]? = some (some scored) := by
  rcases mem_of_foldl_keepBest h with hnone | hmem
  · contradiction
  · obtain ⟨⟨result, place⟩, hpair, heq⟩ := List.mem_map.mp hmem
    obtain ⟨rfl, rfl⟩ := Prod.mk.inj heq
    exact List.mem_zipIdx_iff_getElem?.mp hpair

theorem exists_parse_of_length {payload : Bytes} (h : size ≤ payload.length) :
    ∃ header, parse payload = .ok header := by
  unfold size at h
  match payload, h with
  | kind :: startLow :: startHigh :: endLow :: endHigh :: rest, h =>
    simp only [List.length_cons] at h
    have hname : ¬ rest.length < nameSize := by
      unfold nameSize
      omega
    exact ⟨_, by rw [parse, if_neg hname]⟩

theorem exists_score_of_length (rules : Rules) {payload : Bytes} (h : size ≤ payload.length) :
    ∃ scored, score rules payload = .ok scored := by
  obtain ⟨header, hparse⟩ := exists_parse_of_length h
  rw [score, hparse]
  by_cases hcredible : isCredible rules header = true
  · exact ⟨_, if_pos hcredible⟩
  · exact ⟨_, if_neg hcredible⟩

theorem exists_scores_of_length (rules : Rules) {blocks : List Block}
    (h : ∀ block ∈ blocks, size ≤ block.payload.length) :
    ∃ scores, (blocks.mapM fun block => score rules block.payload) = .ok scores := by
  induction blocks with
  | nil => exact ⟨[], rfl⟩
  | cons block rest ih =>
    obtain ⟨scored, hscored⟩ := exists_score_of_length rules (h block (List.mem_cons_self ..))
    obtain ⟨scores, hscores⟩ := ih fun other hother => h other (List.mem_cons_of_mem _ hother)
    refine ⟨scored :: scores, ?_⟩
    rw [List.mapM_cons, hscored, hscores]
    rfl

/-- A payload is scored as the header in it, if that header passes the bounds. -/
theorem score_eq_some_iff {rules : Rules} {payload : Bytes} {scored : Scored} :
    score rules payload = .ok (some scored) ↔
      ∃ header, parse payload = .ok header ∧ isCredible rules header = true ∧
        scored = ⟨header, header.length, points rules header⟩ := by
  constructor
  · intro h
    obtain ⟨header, hparse, h⟩ := (bind_eq_ok_iff _ _ _).mp h
    split at h
    · rename_i hcredible
      exact ⟨header, hparse, hcredible, (Option.some.inj (Except.ok.inj h)).symm⟩
    · cases Except.ok.inj h
  · rintro ⟨header, hparse, hcredible, rfl⟩
    rw [score, hparse]
    exact if_pos hcredible

/-- Where every payload can be scored, the scores alone decide what is located. -/
theorem locate_of_scores {rules : Rules} {blocks : List Block} {scores : List (Option Scored)}
    (hne : blocks ≠ []) (h : (blocks.mapM fun block => score rules block.payload) = .ok scores) :
    locate .scored rules blocks =
      match best? scores with
      | none => .error .headerMissing
      | some (index, scored) =>
        .ok ⟨index, scored.header, some scored.score,
          (blocks.drop (index + 1)).map (·.payload)⟩ := by
  cases blocks with
  | nil => contradiction
  | cons block rest =>
    unfold locate
    dsimp only
    rw [h]
    rfl

/-- A header that is located is read from the block at its index, and the payloads are those of the
blocks behind it. -/
theorem exists_block_of_locate {strategy : Strategy} {rules : Rules} {blocks : List Block}
    {location : Location} (h : locate strategy rules blocks = .ok location) :
    ∃ block, blocks[location.index]? = some block ∧
      parse block.payload = .ok location.header ∧
      location.payloads = (blocks.drop (location.index + 1)).map (·.payload) := by
  cases blocks with
  | nil => contradiction
  | cons block rest =>
    cases strategy with
    | first =>
      obtain ⟨header, hparse, h⟩ := (bind_eq_ok_iff _ _ _).mp h
      obtain rfl := Except.ok.inj h
      exact ⟨block, rfl, hparse, rfl⟩
    | scored =>
      obtain ⟨scores, hscores, h⟩ := (bind_eq_ok_iff _ _ _).mp h
      cases hbest : best? scores with
      | none =>
        rw [hbest] at h
        contradiction
      | some best =>
        obtain ⟨index, scored⟩ := best
        rw [hbest] at h
        obtain rfl := Except.ok.inj h
        obtain ⟨found, hfound, hscore⟩ := exists_of_mapM_eq_ok hscores (getElem?_of_best? hbest)
        obtain ⟨header, hparse, _, rfl⟩ := score_eq_some_iff.mp hscore
        exact ⟨found, hfound, hparse, rfl⟩

/-- A header that was read stands at the front of the payload. -/
theorem exists_fields_of_parse {payload : Bytes} {header : Header}
    (h : parse payload = .ok header) :
    ∃ kind startLow startHigh endLow endHigh rest, nameSize ≤ rest.length ∧
      payload = kind :: startLow :: startHigh :: endLow :: endHigh :: rest ∧
      header = ⟨kind.toNat, word startLow startHigh, word endLow endHigh, rest.take nameSize⟩ := by
  match payload, h with
  | kind :: startLow :: startHigh :: endLow :: endHigh :: rest, h =>
    unfold parse at h
    dsimp only at h
    split at h
    · contradiction
    · rename_i hlong
      exact ⟨kind, startLow, startHigh, endLow, endHigh, rest, Nat.le_of_not_lt hlong, rfl,
        (Except.ok.inj h).symm⟩

theorem address_lt_of_parse {payload : Bytes} {header : Header} (h : parse payload = .ok header) :
    header.startAddress < 65536 ∧ header.endAddress < 65536 := by
  obtain ⟨_, startLow, startHigh, endLow, endHigh, _, _, _, rfl⟩ := exists_fields_of_parse h
  exact ⟨word_lt startLow startHigh, word_lt endLow endHigh⟩

theorem length_rawName_of_parse {payload : Bytes} {header : Header}
    (h : parse payload = .ok header) :
    header.rawName.length = nameSize := by
  obtain ⟨_, _, _, _, _, rest, hlong, _, rfl⟩ := exists_fields_of_parse h
  exact (List.length_take ..).trans (Nat.min_eq_left hlong)

end TapeSalvage.Header
