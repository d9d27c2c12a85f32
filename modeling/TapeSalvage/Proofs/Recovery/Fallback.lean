import TapeSalvage.Proofs.Recovery.Faults
import TapeSalvage.Proofs.Recovery.Scanning
import TapeSalvage.Proofs.Recovery.Telling

/-!
The automatic mode. It is the blocks mode where that gives a result, and the scan mode where it does
not: blocks can only come to nothing, and no fault of theirs is kept from the scan. The three modes
read and classify a capture alike, so what they tell differs only behind that.
-/
namespace TapeSalvage.Recovery

variable {α : Type}

def warningLine (voice : Voice) (text : String) : String :=
  s!"[TapeRecovery:{voice.name}] WARNING: {text}"

def warned (voice : Voice) (text : String) : Journal α :=
  ⟨[.warning text],
    if voice.isQuiet then .empty else Console.empty.complain (warningLine voice text)⟩

theorem run_warn (voice : Voice) (text : String) :
    run (warn voice text : Attempt α Unit) = (.ok (), warned voice text) := by
  obtain ⟨name, isQuiet⟩ := voice
  cases isQuiet with
  | true => rfl
  | false => rfl

theorem fault_of_run_recoverFromBlocks {config : Config α} {data : Bytes} {reading : Reading α}
    {fault : Fault} (h : (run (recoverFromBlocks config data reading)).1 = .error fault) :
    fault.kind = .exhaustion := by
  rw [(yields_recoverFromBlocks config data reading).run_eq] at h
  exact (isExhausted_of_fromBlocks h).1

theorem findings_of_run_recoverByScan {config : Config α} {data : Bytes} {reading : Reading α}
    {result : Result α}
    (h : (run (recoverByScan config data reading)).1 = .ok result) :
    ∃ findings, result.findings = .scan findings := by
  rw [(yields_recoverByScan config data reading).run_eq] at h
  obtain ⟨best, _, rfl⟩ := search_of_fromScan h
  exact ⟨_, rfl⟩

theorem run_fallBack {config : Config α} {fault : Fault} (hkind : fault.kind = .exhaustion)
    (data : Bytes) (reading : Reading α) :
    run (fallBack config data reading fault) =
      ((run (recoverByScan config data reading)).1,
        (warned config.voice (fallbackText fault)).append
          (run (recoverByScan config data reading)).2) := by
  unfold fallBack
  rw [if_neg (not_not_intro hkind),
    run_bind_of_adds fun _ => adds_recoverByScan config data reading, run_warn]

section Modes

variable [Pulse.Gauge α] {config : Config α} {capture data : Bytes} {reading : Reading α}
  {told later : Journal α} {fault : Fault}

/-- A recovery in one of the modes, whatever mode the set-up names. -/
def runIn (mode : Mode) (config : Config α) (capture : Bytes) :
    Except Fault (Result α) × Journal α :=
  run (recover { config with mode } capture)

/-- No mode has a part in the decoding. -/
theorem runIn_eq (mode : Mode) (config : Config α) (capture : Bytes) :
    runIn mode config capture =
      match run (decode config capture) with
      | (.ok value, told) =>
        let rest := run (recoverDecoded { config with mode } value.1 value.2)
        (rest.1, told.append rest.2)
      | (.error fault, told) => (.error fault, told) := by
  have hrest (value : Bytes × Reading α) :
      Adds (recoverDecoded { config with mode } value.1 value.2) :=
    adds_recoverDecoded config mode value.1 value.2
  change run (decode config capture >>= fun value =>
    recoverDecoded { config with mode } value.1 value.2) = _
  rw [run_bind_of_adds hrest]
  cases run (decode config capture) with
  | mk outcome told => cases outcome <;> rfl

theorem runIn_blocks (hdecode : run (decode config capture) = (.ok (data, reading), told)) :
    runIn .blocks config capture =
      ((run (recoverFromBlocks config data reading)).1,
        told.append (run (recoverFromBlocks config data reading)).2) := by
  rw [runIn_eq, hdecode]
  rfl

theorem runIn_scan (hdecode : run (decode config capture) = (.ok (data, reading), told)) :
    runIn .scan config capture =
      ((run (recoverByScan config data reading)).1,
        told.append (run (recoverByScan config data reading)).2) := by
  rw [runIn_eq, hdecode]
  rfl

/-- The automatic mode ends with a result of blocks. -/
theorem runIn_automatic_of_ok {result : Result α}
    (hdecode : run (decode config capture) = (.ok (data, reading), told))
    (hblocks : run (recoverFromBlocks config data reading) = (.ok result, later)) :
    runIn .automatic config capture = (.ok result, told.append later) := by
  have hrest : run (recoverDecoded { config with mode := .automatic } data reading) =
      (.ok result, later) := by
    rw [recoverDecoded_automatic, run_tryCatch_of_adds (adds_fallBack config data reading), hblocks]
  rw [runIn_eq, hdecode]
  dsimp only
  rw [hrest]

/-- The automatic mode warns of a fault of blocks and goes on with the scan. -/
theorem runIn_automatic_of_error
    (hdecode : run (decode config capture) = (.ok (data, reading), told))
    (hblocks : run (recoverFromBlocks config data reading) = (.error fault, later)) :
    runIn .automatic config capture =
      ((run (recoverByScan config data reading)).1,
        ((told.append later).append (warned config.voice (fallbackText fault))).append
          (run (recoverByScan config data reading)).2) := by
  -- Any other fault would be thrown again, and the scan would have no turn.
  have hkind : fault.kind = .exhaustion :=
    fault_of_run_recoverFromBlocks (congrArg Prod.fst hblocks)
  have hrest : run (recoverDecoded { config with mode := .automatic } data reading) =
      ((run (recoverByScan config data reading)).1,
        later.append ((warned config.voice (fallbackText fault)).append
          (run (recoverByScan config data reading)).2)) := by
    rw [recoverDecoded_automatic, run_tryCatch_of_adds (adds_fallBack config data reading), hblocks]
    dsimp only
    rw [run_fallBack hkind]
  rw [runIn_eq, hdecode]
  dsimp only
  rw [hrest, Journal.append_assoc, Journal.append_assoc]

/-- The three modes read and classify a capture alike. The automatic mode ends as the blocks mode
does if that gives a result, and else as the scan mode does, with a result of the scan and none of
what was found in blocks; it then tells what blocks told, warns of their fault, and tells what the
scan told behind the decoding. -/
theorem runIn_automatic (config : Config α) (capture : Bytes) :
    (∀ fault, (run (decode config capture)).1 = .error fault →
      ∀ mode, runIn mode config capture = (.error fault, (run (decode config capture)).2)) ∧
    (∀ result, (runIn .blocks config capture).1 = .ok result →
      runIn .automatic config capture = runIn .blocks config capture) ∧
    (∀ fault, (runIn .blocks config capture).1 = .error fault →
      (runIn .automatic config capture).1 = (runIn .scan config capture).1 ∧
      ∀ result, (runIn .automatic config capture).1 = .ok result →
        ∃ findings, result.findings = .scan findings) ∧
    ∀ value fault, (run (decode config capture)).1 = .ok value →
      (runIn .blocks config capture).1 = .error fault →
      ∃ later : Journal α,
        (runIn .scan config capture).2 = (run (decode config capture)).2.append later ∧
        (runIn .automatic config capture).2 =
          ((runIn .blocks config capture).2.append
            (warned config.voice (fallbackText fault))).append later := by
  cases hdecode : run (decode config capture) with
  | mk outcome told =>
    cases outcome with
    | error cause =>
      have hmode (mode : Mode) : runIn mode config capture = (.error cause, told) := by
        rw [runIn_eq, hdecode]
      rw [hmode, hmode, hmode]
      refine ⟨?_, fun _ _ => rfl, fun _ _ => ⟨rfl, by simp⟩, by simp⟩
      intro fault hfault mode
      obtain rfl := Except.error.inj hfault
      exact hmode mode
    | ok value =>
      obtain ⟨data, reading⟩ := value
      rw [runIn_blocks hdecode, runIn_scan hdecode]
      cases hblocks : run (recoverFromBlocks config data reading) with
      | mk outcome later =>
        cases outcome with
        | ok result =>
          rw [runIn_automatic_of_ok hdecode hblocks]
          exact ⟨by simp, fun _ _ => rfl, by simp, by simp⟩
        | error cause =>
          rw [runIn_automatic_of_error hdecode hblocks]
          refine ⟨by simp, by simp, ?_, ?_⟩
          · intro _ _
            exact ⟨rfl, fun _ => findings_of_run_recoverByScan⟩
          · intro _ fault _ hfault
            obtain rfl := Except.error.inj hfault
            exact ⟨_, rfl, rfl⟩

end Modes

def lonePulse : Bytes := Capture.ofStream [100]

theorem runIn_automatic_lonePulse :
    ∃ later, (runIn .blocks (Config.standard : Config Rat) lonePulse).1 = .error .blocksMissing ∧
      (runIn .automatic (Config.standard : Config Rat) lonePulse).1 = .error .programMissing ∧
      (runIn .automatic (Config.standard : Config Rat) lonePulse).2 =
        ((runIn .blocks (Config.standard : Config Rat) lonePulse).2.append
          (warned ⟨"tape", false⟩ (fallbackText .blocksMissing))).append later := by
  have hpulses : Capture.pulses lonePulse = .ok [100] := rfl
  have hadmits : (Config.standard : Config Rat).pulseRules.admits (Pulse.Gauge.ofInt 100) =
      true := by decide +kernel
  have hmem : (Pulse.Gauge.ofInt 100 : Rat) ∈
      [100].map fun pulse : Nat => (Pulse.Gauge.ofInt pulse : Rat) := List.mem_cons_self ..
  obtain ⟨classification, hclassify, hlength⟩ := exists_classify_of_mem hmem hadmits
  obtain ⟨symbol, hsymbols⟩ := List.length_eq_one_iff.mp hlength
  have hbytes : (Frame.decode [symbol]).bytes = [] := by cases symbol <;> rfl
  have hdecode : (run (decode (Config.standard : Config Rat) lonePulse)).1 =
      .ok ([], ⟨classification.centers, 1, 0⟩) := by
    rw [(yields_decode _ _).run_eq, decoded_eq_ok hpulses hclassify, hsymbols, hbytes]
    rfl
  have hrun : run (decode (Config.standard : Config Rat) lonePulse) =
      (.ok ([], ⟨classification.centers, 1, 0⟩), _) := Prod.ext hdecode rfl
  have hblocks : (runIn .blocks (Config.standard : Config Rat) lonePulse).1 =
      .error .blocksMissing := by
    rw [runIn_blocks hrun]
    rfl
  have hscan : (runIn .scan (Config.standard : Config Rat) lonePulse).1 =
      .error .programMissing := by
    rw [runIn_scan hrun]
    rfl
  obtain ⟨_, _, hends, htells⟩ := runIn_automatic (Config.standard : Config Rat) lonePulse
  obtain ⟨later, _, hlater⟩ := htells _ _ hdecode hblocks
  exact ⟨later, hblocks, (hends _ hblocks).1.trans hscan, hlater⟩

end TapeSalvage.Recovery
