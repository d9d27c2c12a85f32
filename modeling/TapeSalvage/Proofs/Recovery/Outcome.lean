import TapeSalvage.Proofs.Fault.Steps
import TapeSalvage.Recovery.Pipeline

/-!
What recoveries end with, apart from their journals. No step of a recovery reads the journal, so
its outcome is that of the same steps without one.
-/
namespace TapeSalvage.Recovery

variable {α ρ σ : Type}

/-- An attempt yields an outcome if it ends with it whatever was told before. -/
def Yields (attempt : Attempt α ρ) (outcome : Except Fault ρ) : Prop :=
  ∀ journal, ((ExceptT.run attempt).run journal).1 = outcome

theorem Yields.run_eq {attempt : Attempt α ρ} {outcome : Except Fault ρ}
    (h : Yields attempt outcome) : (run attempt).1 = outcome := h _

theorem yields_pure (value : ρ) : Yields (pure value : Attempt α ρ) (.ok value) := fun _ => rfl

theorem yields_throw (fault : Fault) : Yields (throw fault : Attempt α ρ) (.error fault) :=
  fun _ => rfl

theorem yields_lift (outcome : Except Fault ρ) : Yields (lift outcome : Attempt α ρ) outcome :=
  fun _ => rfl

theorem Yields.bind {attempt : Attempt α ρ} {next : ρ → Attempt α σ} {outcome : Except Fault ρ}
    {after : ρ → Except Fault σ} (h : Yields attempt outcome)
    (hnext : ∀ value, Yields (next value) (after value)) :
    Yields (attempt >>= next) (outcome >>= after) := by
  intro journal
  have hfirst := h journal
  rw [run_bind]
  cases hrun : (ExceptT.run attempt).run journal with
  | mk result later =>
    rw [hrun] at hfirst
    dsimp only at hfirst
    subst hfirst
    cases result with
    | ok value => exact hnext value later
    | error fault => rfl

/-- A step that cannot fail leaves the outcome to the steps after it. -/
theorem Yields.then {attempt : Attempt α ρ} {next : ρ → Attempt α σ} {value : ρ}
    {outcome : Except Fault σ} (h : Yields attempt (.ok value))
    (hnext : Yields (next value) outcome) : Yields (attempt >>= next) outcome := by
  intro journal
  have hfirst := h journal
  rw [run_bind]
  cases hrun : (ExceptT.run attempt).run journal with
  | mk result later =>
    rw [hrun] at hfirst
    dsimp only at hfirst
    subst hfirst
    exact hnext later

theorem Yields.tryCatch {attempt : Attempt α ρ} {handler : Fault → Attempt α ρ}
    {outcome : Except Fault ρ} {after : Fault → Except Fault ρ} (h : Yields attempt outcome)
    (hhandler : ∀ fault, Yields (handler fault) (after fault)) :
    Yields (tryCatch attempt handler) (tryCatch outcome after) := by
  intro journal
  have hfirst := h journal
  rw [run_tryCatch]
  cases hrun : (ExceptT.run attempt).run journal with
  | mk result later =>
    rw [hrun] at hfirst
    dsimp only at hfirst
    subst hfirst
    cases result with
    | ok value => rfl
    | error fault => exact hhandler fault later

theorem yields_tell (event : Event α) : Yields (tell event) (.ok ()) := fun _ => rfl

theorem yields_report (progress : Progress α) : Yields (report progress) (.ok ()) := fun _ => rfl

theorem yields_onConsole (voice : Voice) (change : Console → Console) :
    Yields (onConsole voice change : Attempt α Unit) (.ok ()) := by
  unfold onConsole
  split
  · exact yields_pure ()
  · exact fun _ => rfl

theorem yields_log (voice : Voice) (text : String) :
    Yields (log voice text : Attempt α Unit) (.ok ()) :=
  (yields_onConsole voice _).then (yields_tell _)

theorem yields_warn (voice : Voice) (text : String) :
    Yields (warn voice text : Attempt α Unit) (.ok ()) :=
  (yields_onConsole voice _).then (yields_tell _)

/-- The result of a recovery from blocks, once the header is located and the program assembled. -/
def blocksResult (config : Config α) (decoded : Bytes) (reading : Reading α)
    (location : Header.Location) (assembly : Program.Assembly) : Result α :=
  let blocks := Block.findAll decoded
  let selection := Block.select config.copy blocks
  { decoded, reading
    image := assembly.image
    lines := Listing.lines config.listingRules assembly.image
    shortfall := assembly.shortfall
    findings := .blocks {
      copyA := (Block.ofCopy .a blocks).length
      copyB := (Block.ofCopy .b blocks).length
      total := blocks.length
      used := selection.copy
      usedCount := selection.blocks.length
      checksums := Block.tally Block.sampleLimit selection.blocks
      header := location.header
      headerIndex := location.index
      headerScore := location.score
      fileName := location.header.name
      assembledLength := assembly.image.body.length } }

def fromBlocks (config : Config α) (decoded : Bytes) (reading : Reading α) :
    Except Fault (Result α) :=
  if (Block.findAll decoded).isEmpty then .error .blocksMissing
  else do
    let selection := Block.select config.copy (Block.findAll decoded)
    let location ← Header.locate config.strategy config.headerRules selection.blocks
    let assembly ← Program.assemble (config.lengthLimit.getD Program.lengthLimit)
      location.header.startAddress location.header.endAddress location.payloads
    return blocksResult config decoded reading location assembly

theorem yields_listImage (config : Config α) (image : Program.Image) :
    Yields (listImage config image) (.ok (Listing.lines config.listingRules image)) :=
  (yields_report _).then (yields_pure _)

theorem yields_logSelection (voice : Voice) (blocks : List Block) (selection : Block.Selection)
    (checksums : Block.Tally) :
    Yields (logSelection voice blocks selection checksums : Attempt α Unit) (.ok ()) := by
  unfold logSelection
  refine (yields_log _ _).then ?_
  refine (yields_log _ _).then ?_
  refine (yields_log _ _).then ?_
  split
  · refine (yields_warn _ _).then ?_
    exact yields_report _
  · exact yields_report _

theorem yields_recoverFromBlocks (config : Config α) (data : Bytes) (reading : Reading α) :
    Yields (recoverFromBlocks config data reading) (fromBlocks config data reading) := by
  unfold recoverFromBlocks fromBlocks
  by_cases hempty : (Block.findAll data).isEmpty
  · dsimp only
    rw [if_pos hempty, if_pos hempty]
    exact yields_throw _
  · dsimp only
    rw [if_neg hempty, if_neg hempty]
    refine (yields_logSelection _ _ _ _).then ?_
    refine (yields_lift _).bind fun location => ?_
    refine (yields_log _ _).then ?_
    refine (yields_lift _).bind fun assembly => ?_
    split
    · refine (yields_warn _ _).then ?_
      refine (yields_log _ _).then ?_
      refine (yields_listImage _ _).then ?_
      exact yields_pure _
    · refine (yields_log _ _).then ?_
      refine (yields_listImage _ _).then ?_
      exact yields_pure _

/-- The result of a recovery by scanning, once a candidate is found. -/
def scanResult (config : Config α) (decoded : Bytes) (reading : Reading α)
    (best : Scan.Candidate) : Result α :=
  let image := candidateImage decoded best
  { decoded, image, reading
    lines := Listing.lines config.listingRules image
    shortfall := none
    findings := .scan {
      offset := best.offset
      score := best.score
      loadAddress := best.loadAddress
      lineCount := best.lineCount
      endOffset := best.endOffset
      imageLength := image.bytes.length } }

def fromScan (config : Config α) (decoded : Bytes) (reading : Reading α) :
    Except Fault (Result α) := do
  let best ← Scan.search config.scanRules decoded
  return scanResult config decoded reading best

theorem yields_recoverByScan (config : Config α) (data : Bytes) (reading : Reading α) :
    Yields (recoverByScan config data reading) (fromScan config data reading) := by
  refine (yields_lift _).bind fun best => ?_
  refine (yields_log _ _).then ?_
  refine (yields_log _ _).then ?_
  refine (yields_log _ _).then ?_
  refine (yields_listImage _ _).then ?_
  exact yields_pure _

def fromDecoded (config : Config α) (data : Bytes) (reading : Reading α) :
    Except Fault (Result α) :=
  match config.mode with
  | .blocks => fromBlocks config data reading
  | .scan => fromScan config data reading
  | .automatic =>
    tryCatch (fromBlocks config data reading) fun fault =>
      if fault.kind ≠ .exhaustion then .error fault else fromScan config data reading

theorem yields_recoverDecoded (config : Config α) (data : Bytes) (reading : Reading α) :
    Yields (recoverDecoded config data reading) (fromDecoded config data reading) := by
  unfold recoverDecoded fromDecoded
  cases config.mode with
  | blocks => exact yields_recoverFromBlocks config data reading
  | scan => exact yields_recoverByScan config data reading
  | automatic =>
    refine (yields_recoverFromBlocks config data reading).tryCatch fun fault => ?_
    split
    · exact yields_throw fault
    · refine (yields_warn _ _).then ?_
      exact yields_recoverByScan config data reading

section Decoding

variable [Pulse.Gauge α]

def decoded (config : Config α) (capture : Bytes) : Except Fault (Bytes × Reading α) := do
  let pulses ← Capture.pulses capture
  let classification ← Pulse.classify config.pulseRules
    (pulses.map fun (pulse : Nat) => (Pulse.Gauge.ofInt pulse : α))
  let bytes := (Frame.decode classification.symbols).bytes
  return (bytes, ⟨classification.centers, pulses.length, bytes.length⟩)

theorem yields_decode (config : Config α) (capture : Bytes) :
    Yields (decode config capture) (decoded config capture) := by
  refine (yields_lift _).bind fun pulses => ?_
  refine (yields_report _).then ?_
  refine (yields_lift _).bind fun classification => ?_
  refine (yields_log _ _).then ?_
  refine (yields_report _).then ?_
  refine (yields_log _ _).then ?_
  refine (yields_report _).then ?_
  exact yields_pure _

theorem decoded_eq_ok {config : Config α} {capture : Bytes} {pulses : List Nat}
    {classification : Pulse.Classification α} (hpulses : Capture.pulses capture = .ok pulses)
    (hclassify : Pulse.classify config.pulseRules
      (pulses.map fun (pulse : Nat) => (Pulse.Gauge.ofInt pulse : α)) = .ok classification) :
    decoded config capture =
      .ok ((Frame.decode classification.symbols).bytes, ⟨classification.centers, pulses.length,
        (Frame.decode classification.symbols).bytes.length⟩) := by
  unfold decoded
  rw [hpulses]
  change (Pulse.classify _ _ >>= _) = _
  rw [hclassify]
  rfl

def recovered (config : Config α) (capture : Bytes) : Except Fault (Result α) := do
  let (data, reading) ← decoded config capture
  fromDecoded config data reading

theorem yields_recover (config : Config α) (capture : Bytes) :
    Yields (recover config capture) (recovered config capture) := by
  refine (yields_decode config capture).bind fun value => ?_
  exact yields_recoverDecoded config value.1 value.2

end Decoding

end TapeSalvage.Recovery
