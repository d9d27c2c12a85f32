import TapeSalvage.Proofs.Block.Writing
import TapeSalvage.Proofs.Header.Location
import TapeSalvage.Proofs.Pulse.Outcome
import TapeSalvage.Proofs.Recovery.Outcome
import TapeSalvage.Proofs.Scan.Checked

/-!
The faults that a recovery can end with. Blocks are found whole, so every header field can be read;
only pulses in range are clustered, of which there is one at least; and neither the scan nor the
listing reads a word outside its bytes. What is left are the faults of the capture itself and of
stages that found nothing they could use.
-/
namespace TapeSalvage.Recovery

variable {α : Type}

def IsExhausted (stages : List Stage) (fault : Fault) : Prop :=
  fault.kind = .exhaustion ∧ ∃ stage ∈ stages, ∃ step, fault.origin? = some (stage, step)

theorem IsExhausted.mono {stages others : List Stage} {fault : Fault} (h : IsExhausted stages fault)
    (hsub : stages ⊆ others) : IsExhausted others fault := by
  obtain ⟨hkind, stage, hmem, step, horigin⟩ := h
  exact ⟨hkind, stage, hsub hmem, step, horigin⟩

theorem isExhausted_singleton {stage : Stage} {step : String} {fault : Fault}
    (hkind : fault.kind = .exhaustion) (horigin : fault.origin? = some (stage, step)) :
    IsExhausted [stage] fault :=
  ⟨hkind, stage, List.mem_cons_self .., step, horigin⟩

/-- Steps fail where one of them does. -/
theorem bind_eq_error_iff {ρ σ : Type} (outcome : Except Fault ρ) (next : ρ → Except Fault σ)
    (fault : Fault) :
    (outcome >>= next) = .error fault ↔
      outcome = .error fault ∨ ∃ value, outcome = .ok value ∧ next value = .error fault := by
  cases outcome with
  | error cause =>
    change Except.error cause = Except.error fault ↔ _
    simp
  | ok value =>
    change next value = .error fault ↔ _
    simp

theorem pulses_eq_error_iff (capture : Bytes) (fault : Fault) :
    Capture.pulses capture = .error fault ↔ Capture.Header.parse capture = .error fault := by
  unfold Capture.pulses
  rw [bind_eq_error_iff]
  constructor
  · rintro (h | ⟨header, _, h⟩)
    · exact h
    · contradiction
  · exact Or.inl

theorem kind_of_parse {capture : Bytes} {fault : Fault}
    (h : Capture.Header.parse capture = .error fault) : fault.kind = .format := by
  unfold Capture.Header.parse at h
  dsimp only at h
  split at h
  · obtain rfl := Except.error.inj h
    rfl
  split at h
  · obtain rfl := Except.error.inj h
    rfl
  split at h
  · obtain rfl := Except.error.inj h
    rfl
  · contradiction

/-- Clustering is asked for at least one pulse. -/
theorem isExhausted_of_classify [Pulse.Gauge α] {rules : Pulse.Rules α} {pulses : List α}
    {fault : Fault} (h : Pulse.classify rules pulses = .error fault) :
    IsExhausted [.classify] fault := by
  by_cases hnil : pulses.filter rules.admits = []
  · rw [Pulse.classify_of_eq_nil hnil] at h
    obtain rfl := Except.error.inj h
    exact isExhausted_singleton rfl rfl
  · rw [Pulse.classify_of_ne_nil hnil] at h
    contradiction

theorem exists_classify_of_mem [Pulse.Gauge α] {rules : Pulse.Rules α} {pulse : α}
    {pulses : List α} (hmem : pulse ∈ pulses) (hadmits : rules.admits pulse = true) :
    ∃ classification, Pulse.classify rules pulses = .ok classification ∧
      classification.symbols.length = pulses.length := by
  have hne : pulses.filter rules.admits ≠ [] :=
    List.ne_nil_of_mem (List.mem_filter.mpr ⟨hmem, hadmits⟩)
  exact ⟨_, Pulse.classify_of_ne_nil hne, List.length_map _⟩

/-- Looking for a header among whole blocks fails only for want of one. -/
theorem isExhausted_of_locate {strategy : Header.Strategy} {rules : Header.Rules}
    {blocks : List Block} {fault : Fault}
    (hlong : ∀ block ∈ blocks, Header.size ≤ block.payload.length)
    (h : Header.locate strategy rules blocks = .error fault) : IsExhausted [.header] fault := by
  cases blocks with
  | nil =>
    obtain rfl := Except.error.inj h
    exact isExhausted_singleton rfl rfl
  | cons block rest =>
    cases strategy with
    | first =>
      obtain ⟨header, hparse⟩ := Header.exists_parse_of_length (hlong block (List.mem_cons_self ..))
      rw [Header.locate, hparse] at h
      contradiction
    | scored =>
      obtain ⟨scores, hscores⟩ := Header.exists_scores_of_length rules hlong
      rw [Header.locate_of_scores (List.cons_ne_nil block rest) hscores] at h
      cases hbest : Header.best? scores with
      | none =>
        rw [hbest] at h
        obtain rfl := Except.error.inj h
        exact isExhausted_singleton rfl rfl
      | some best =>
        rw [hbest] at h
        contradiction

theorem isExhausted_of_assemble {limit start finish : Int} {payloads : List Bytes} {fault : Fault}
    (h : Program.assemble limit start finish payloads = .error fault) :
    IsExhausted [.assemble] fault := by
  unfold Program.assemble at h
  dsimp only at h
  split at h
  · obtain rfl := Except.error.inj h
    exact isExhausted_singleton rfl rfl
  · contradiction

theorem length_of_mem_select {choice : Block.Choice} {data : Bytes} {block : Block}
    (h : block ∈ (Block.select choice (Block.findAll data)).blocks) :
    block.payload.length = Block.payloadSize :=
  (Block.payload_of_mem_findAll (List.mem_of_mem_filter h)).1

theorem isExhausted_of_fromBlocks {config : Config α} {data : Bytes} {reading : Reading α}
    {fault : Fault} (h : fromBlocks config data reading = .error fault) :
    IsExhausted [.blocks, .header, .assemble] fault := by
  unfold fromBlocks at h
  by_cases hempty : (Block.findAll data).isEmpty = true
  · rw [if_pos hempty] at h
    obtain rfl := Except.error.inj h
    exact (isExhausted_singleton rfl rfl).mono (by simp)
  rw [if_neg hempty] at h
  dsimp only at h
  -- A payload is long enough for the fields of a header, so no block fails to be read as one.
  have hlong : ∀ block ∈ (Block.select config.copy (Block.findAll data)).blocks,
      Header.size ≤ block.payload.length := by
    intro block hblock
    rw [length_of_mem_select hblock]
    decide
  rcases (bind_eq_error_iff _ _ _).mp h with hlocate | ⟨location, _, h⟩
  · exact (isExhausted_of_locate hlong hlocate).mono (by simp)
  rcases (bind_eq_error_iff _ _ _).mp h with hassemble | ⟨assembly, _, h⟩
  · exact (isExhausted_of_assemble hassemble).mono (by simp)
  · contradiction

theorem isExhausted_of_fromScan {config : Config α} {data : Bytes} {reading : Reading α}
    {fault : Fault} (h : fromScan config data reading = .error fault) :
    IsExhausted [.scan] fault := by
  rcases (bind_eq_error_iff _ _ _).mp h with hsearch | ⟨best, _, h⟩
  · unfold Scan.search at hsearch
    split at hsearch
    · contradiction
    · obtain rfl := Except.error.inj hsearch
      exact isExhausted_singleton rfl rfl
  · contradiction

def Mode.stages : Mode → List Stage
  | .blocks => [.classify, .blocks, .header, .assemble]
  | .scan | .automatic => [.classify, .scan]

/-- Where blocks come to nothing, scanning decides: the faults of blocks are never the last word. -/
theorem fromDecoded_automatic {config : Config α} (hmode : config.mode = .automatic) (data : Bytes)
    (reading : Reading α) :
    fromDecoded config data reading =
      match fromBlocks config data reading with
      | .ok result => .ok result
      | .error _ => fromScan config data reading := by
  rw [fromDecoded, hmode]
  dsimp only
  cases hblocks : fromBlocks config data reading with
  | ok result => rfl
  | error fault =>
    have hkind : ¬ fault.kind ≠ .exhaustion := not_not_intro (isExhausted_of_fromBlocks hblocks).1
    exact if_neg hkind

theorem isExhausted_of_fromDecoded {config : Config α} {data : Bytes} {reading : Reading α}
    {fault : Fault} (h : fromDecoded config data reading = .error fault) :
    IsExhausted config.mode.stages fault := by
  cases hmode : config.mode with
  | blocks =>
    rw [fromDecoded, hmode] at h
    exact (isExhausted_of_fromBlocks h).mono (by simp [Mode.stages])
  | scan =>
    rw [fromDecoded, hmode] at h
    exact (isExhausted_of_fromScan h).mono (by simp [Mode.stages])
  | automatic =>
    rw [fromDecoded_automatic hmode] at h
    split at h
    · contradiction
    · exact (isExhausted_of_fromScan h).mono (by simp [Mode.stages])

theorem classify_mem_stages (mode : Mode) : .classify ∈ mode.stages := by
  cases mode <;> exact List.mem_cons_self ..

section Decoding

variable [Pulse.Gauge α]

theorem decoded_eq_error {config : Config α} {capture : Bytes} {fault : Fault}
    (h : decoded config capture = .error fault) :
    Capture.Header.parse capture = .error fault ∨ IsExhausted [.classify] fault := by
  unfold decoded at h
  rcases (bind_eq_error_iff _ _ _).mp h with hpulses | ⟨pulses, _, h⟩
  · exact Or.inl ((pulses_eq_error_iff capture fault).mp hpulses)
  rcases (bind_eq_error_iff _ _ _).mp h with hclassify | ⟨classification, _, h⟩
  · exact Or.inr (isExhausted_of_classify hclassify)
  · contradiction

theorem recovered_of_parse {config : Config α} {capture : Bytes} {fault : Fault}
    (h : Capture.Header.parse capture = .error fault) :
    recovered config capture = .error fault := by
  unfold recovered decoded
  rw [(pulses_eq_error_iff capture fault).mpr h]
  rfl

/-- A recovery ends with a result, with the fault of a capture whose header cannot be read, or with
that of a stage which found nothing it could use; a capture whose header cannot be read is always
told as such. In no stage is a word read outside the bytes at hand. -/
theorem recover_fault (config : Config α) (capture : Bytes) :
    (∀ fault, Capture.Header.parse capture = .error fault →
      (run (recover config capture)).1 = .error fault ∧ fault.kind = .format) ∧
    (∀ fault, (run (recover config capture)).1 = .error fault →
      (fault.kind = .format ∧ Capture.Header.parse capture = .error fault) ∨
        IsExhausted config.mode.stages fault) ∧
    (∀ data, Scan.checkedSearch? config.scanRules data =
      .ok (Scan.search? config.scanRules data)) ∧
    ∀ image, Listing.checkedRecords config.listingRules image =
      .ok (Listing.records config.listingRules image) := by
  rw [(yields_recover config capture).run_eq]
  refine ⟨?_, ?_, Scan.checkedSearch?_eq _, Listing.checkedRecords_eq _⟩
  · intro fault hparse
    exact ⟨recovered_of_parse hparse, kind_of_parse hparse⟩
  · intro fault hfault
    rcases (bind_eq_error_iff _ _ _).mp hfault with hdecoded | ⟨value, _, hdecoded⟩
    · rcases decoded_eq_error hdecoded with hparse | hclassify
      · exact Or.inl ⟨kind_of_parse hparse, hparse⟩
      · refine Or.inr (hclassify.mono ?_)
        intro stage hstage
        rw [List.mem_singleton.mp hstage]
        exact classify_mem_stages config.mode
    · exact Or.inr (isExhausted_of_fromDecoded hdecoded)

end Decoding

/-- A capture without pulses can be read, and comes to nothing when its pulses are classified. -/
theorem recover_fault_silence :
    (run (recover (Config.standard : Config Rat) (Capture.ofStream []))).1 =
      .error (.pulsesUnusable 10 250) ∧
    IsExhausted [.classify, .scan] (.pulsesUnusable 10 250) := by
  have hrun : (run (recover (Config.standard : Config Rat) (Capture.ofStream []))).1 =
      .error (.pulsesUnusable 10 250) := rfl
  refine ⟨hrun, ?_⟩
  rcases (recover_fault Config.standard (Capture.ofStream [])).2.1 _ hrun with ⟨hformat, _⟩ | hstage
  · contradiction
  · exact hstage

end TapeSalvage.Recovery
