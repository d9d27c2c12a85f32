import TapeSalvage.Proofs.Recovery.Telling

/-!
Recoveries that differ only in their voice: in the name in the console lines, and in whether the
console stays silent. They do the same and tell the same. What stands on the console follows from
what was told and from the voice alone, whether they end with a result or with a fault.
-/
namespace TapeSalvage.Recovery

variable {α ρ σ : Type}

def Event.logText? : Event α → Option String
  | .log text => some text
  | _ => none

def Event.warningText? : Event α → Option String
  | .warning text => some text
  | _ => none

/-- What a voice puts on the console for events: nothing if it is silent, and else a line on the
output channel for each log line and one on the error channel for each warning, in their order. -/
def echo (voice : Voice) (events : List (Event α)) : Console :=
  if voice.isQuiet then .empty
  else
    { out := String.join ((events.filterMap Event.logText?).map fun text =>
        s!"[TapeRecovery:{voice.name}] {text}\n")
      err := String.join ((events.filterMap Event.warningText?).map fun text =>
        s!"[TapeRecovery:{voice.name}] WARNING: {text}\n") }

theorem echo_nil (voice : Voice) : echo voice ([] : List (Event α)) = .empty := by
  unfold echo
  split <;> rfl

theorem echo_append (voice : Voice) (first second : List (Event α)) :
    echo voice (first ++ second) = (echo voice first).append (echo voice second) := by
  unfold echo
  split
  · rw [Console.append_empty]
  · simp only [List.filterMap_append, List.map_append, String.join_append, Console.append]

def Config.withVoice (config : Config α) (voice : Voice) : Config α :=
  { config with name := voice.name, isQuiet := voice.isQuiet }

section Rules

variable (config : Config α) (voice : Voice)

@[simp] theorem Config.voice_withVoice : (config.withVoice voice).voice = voice := rfl

@[simp] theorem Config.mode_withVoice : (config.withVoice voice).mode = config.mode := rfl

@[simp] theorem Config.copy_withVoice : (config.withVoice voice).copy = config.copy := rfl

@[simp] theorem Config.strategy_withVoice :
    (config.withVoice voice).strategy = config.strategy := rfl

@[simp] theorem Config.lengthLimit_withVoice :
    (config.withVoice voice).lengthLimit = config.lengthLimit := rfl

@[simp] theorem Config.listingRules_withVoice :
    (config.withVoice voice).listingRules = config.listingRules := rfl

@[simp] theorem Config.headerRules_withVoice :
    (config.withVoice voice).headerRules = config.headerRules := rfl

@[simp] theorem Config.scanRules_withVoice :
    (config.withVoice voice).scanRules = config.scanRules := rfl

@[simp] theorem Config.pulseRules_withVoice [Pulse.Gauge α] :
    (config.withVoice voice).pulseRules = config.pulseRules := rfl

end Rules

/-- Whether computations with all voices come to the same, tell the same events after any journal,
and put on the console what their voices make of these events. -/
def IsVoiced (attempt : Voice → Attempt α ρ) : Prop :=
  ∃ outcome events, ∀ voice journal, (ExceptT.run (attempt voice)).run journal =
    (outcome, journal.append ⟨events, echo voice events⟩)

theorem isVoiced_lift (outcome : Except Fault ρ) :
    IsVoiced fun _ => (lift outcome : Attempt α ρ) := by
  refine ⟨outcome, [], fun voice journal => ?_⟩
  change (outcome, journal) = (outcome, journal.append ⟨[], echo voice []⟩)
  rw [echo_nil]
  exact congrArg (outcome, ·) journal.append_empty.symm

theorem isVoiced_pure (value : ρ) : IsVoiced fun _ => (pure value : Attempt α ρ) :=
  isVoiced_lift (.ok value)

theorem isVoiced_throw (fault : Fault) : IsVoiced fun _ => (throw fault : Attempt α ρ) :=
  isVoiced_lift (.error fault)

theorem IsVoiced.bind {attempt : Voice → Attempt α ρ} {next : Voice → ρ → Attempt α σ}
    (h : IsVoiced attempt) (hnext : ∀ value, IsVoiced fun voice => next voice value) :
    IsVoiced fun voice => attempt voice >>= next voice := by
  obtain ⟨outcome, events, hrun⟩ := h
  cases outcome with
  | error fault =>
    refine ⟨.error fault, events, fun voice journal => ?_⟩
    rw [run_bind, hrun]
  | ok value =>
    obtain ⟨last, more, hrest⟩ := hnext value
    refine ⟨last, events ++ more, fun voice journal => ?_⟩
    rw [run_bind, hrun]
    dsimp only
    rw [hrest, Journal.append_assoc, echo_append]
    rfl

theorem IsVoiced.tryCatch {attempt : Voice → Attempt α ρ} {handler : Voice → Fault → Attempt α ρ}
    (h : IsVoiced attempt) (hhandler : ∀ fault, IsVoiced fun voice => handler voice fault) :
    IsVoiced fun voice => tryCatch (attempt voice) (handler voice) := by
  obtain ⟨outcome, events, hrun⟩ := h
  cases outcome with
  | ok value =>
    refine ⟨.ok value, events, fun voice journal => ?_⟩
    rw [run_tryCatch, hrun]
  | error fault =>
    obtain ⟨last, more, hrest⟩ := hhandler fault
    refine ⟨last, events ++ more, fun voice journal => ?_⟩
    rw [run_tryCatch, hrun]
    dsimp only
    rw [hrest, Journal.append_assoc, echo_append]
    rfl

theorem isVoiced_report (progress : Progress α) : IsVoiced fun _ => report progress := by
  refine ⟨.ok (), [.stage progress], fun voice journal => ?_⟩
  have hecho : echo voice [.stage progress] = .empty := by
    unfold echo
    split <;> rfl
  rw [hecho, Journal.append, Console.append_empty]
  rfl

theorem isVoiced_log (text : String) : IsVoiced fun voice => (log voice text : Attempt α Unit) := by
  refine ⟨.ok (), [.log text], fun voice journal => ?_⟩
  obtain ⟨name, isQuiet⟩ := voice
  cases isQuiet with
  | true =>
    rw [echo, if_pos rfl, Journal.append, Console.append_empty]
    rfl
  | false =>
    have hecho : echo ⟨name, false⟩ [(.log text : Event α)] =
        Console.empty.print s!"[TapeRecovery:{name}] {text}" := rfl
    rw [hecho, Journal.append, Console.append_print]
    rfl

theorem isVoiced_warn (text : String) :
    IsVoiced fun voice => (warn voice text : Attempt α Unit) := by
  refine ⟨.ok (), [.warning text], fun voice journal => ?_⟩
  obtain ⟨name, isQuiet⟩ := voice
  cases isQuiet with
  | true =>
    rw [echo, if_pos rfl, Journal.append, Console.append_empty]
    rfl
  | false =>
    have hecho : echo ⟨name, false⟩ [(.warning text : Event α)] =
        Console.empty.complain s!"[TapeRecovery:{name}] WARNING: {text}" := by
      unfold Console.complain
      rw [Console.empty, String.append_assoc]
      rfl
    rw [hecho, Journal.append, Console.append_complain]
    rfl

theorem isVoiced_listImage (config : Config α) (image : Program.Image) :
    IsVoiced fun voice => listImage (config.withVoice voice) image := by
  unfold listImage
  simp only [Config.listingRules_withVoice]
  exact (isVoiced_report _).bind fun _ => isVoiced_pure _

theorem isVoiced_logSelection (blocks : List Block) (selection : Block.Selection)
    (checksums : Block.Tally) :
    IsVoiced fun voice => (logSelection voice blocks selection checksums : Attempt α Unit) := by
  unfold logSelection
  refine (isVoiced_log _).bind fun _ => ?_
  refine (isVoiced_log _).bind fun _ => ?_
  refine (isVoiced_log _).bind fun _ => ?_
  split
  · refine (isVoiced_warn _).bind fun _ => ?_
    exact isVoiced_report _
  · exact isVoiced_report _

theorem isVoiced_recoverFromBlocks (config : Config α) (data : Bytes) (reading : Reading α) :
    IsVoiced fun voice => recoverFromBlocks (config.withVoice voice) data reading := by
  unfold recoverFromBlocks
  simp only [Config.voice_withVoice, Config.copy_withVoice, Config.strategy_withVoice,
    Config.headerRules_withVoice, Config.lengthLimit_withVoice]
  split
  · exact isVoiced_throw _
  refine (isVoiced_logSelection _ _ _).bind fun _ => ?_
  refine (isVoiced_lift _).bind fun location => ?_
  refine (isVoiced_log _).bind fun _ => ?_
  refine (isVoiced_lift _).bind fun assembly => ?_
  split
  · refine (isVoiced_warn _).bind fun _ => ?_
    refine (isVoiced_log _).bind fun _ => ?_
    refine (isVoiced_listImage config _).bind fun _ => ?_
    exact isVoiced_pure _
  · refine (isVoiced_log _).bind fun _ => ?_
    refine (isVoiced_listImage config _).bind fun _ => ?_
    exact isVoiced_pure _

theorem isVoiced_recoverByScan (config : Config α) (data : Bytes) (reading : Reading α) :
    IsVoiced fun voice => recoverByScan (config.withVoice voice) data reading := by
  unfold recoverByScan
  simp only [Config.voice_withVoice, Config.scanRules_withVoice]
  refine (isVoiced_lift _).bind fun best => ?_
  refine (isVoiced_log _).bind fun _ => ?_
  refine (isVoiced_log _).bind fun _ => ?_
  refine (isVoiced_log _).bind fun _ => ?_
  refine (isVoiced_listImage config _).bind fun _ => ?_
  exact isVoiced_pure _

theorem isVoiced_recoverDecoded (config : Config α) (data : Bytes) (reading : Reading α) :
    IsVoiced fun voice => recoverDecoded (config.withVoice voice) data reading := by
  unfold recoverDecoded
  simp only [Config.voice_withVoice, Config.mode_withVoice]
  cases config.mode with
  | blocks => exact isVoiced_recoverFromBlocks config data reading
  | scan => exact isVoiced_recoverByScan config data reading
  | automatic =>
    refine (isVoiced_recoverFromBlocks config data reading).tryCatch fun fault => ?_
    split
    · exact isVoiced_throw fault
    · exact (isVoiced_warn _).bind fun _ => isVoiced_recoverByScan config data reading

section Decoding

variable [Pulse.Gauge α]

theorem isVoiced_decode (config : Config α) (capture : Bytes) :
    IsVoiced fun voice => decode (config.withVoice voice) capture := by
  unfold decode
  simp only [Config.voice_withVoice, Config.pulseRules_withVoice]
  refine (isVoiced_lift _).bind fun pulses => ?_
  refine (isVoiced_report _).bind fun _ => ?_
  refine (isVoiced_lift _).bind fun classification => ?_
  refine (isVoiced_log _).bind fun _ => ?_
  refine (isVoiced_report _).bind fun _ => ?_
  refine (isVoiced_log _).bind fun _ => ?_
  refine (isVoiced_report _).bind fun _ => ?_
  exact isVoiced_pure _

theorem isVoiced_recover (config : Config α) (capture : Bytes) :
    IsVoiced fun voice => recover (config.withVoice voice) capture :=
  (isVoiced_decode config capture).bind fun value =>
    isVoiced_recoverDecoded config value.1 value.2

/-- Recoveries with another name or another silence end with the same result or the same fault and
tell the same events. Their console is empty if they are silent; else it has a line with their name
on the output channel for each log line that was told, and one on the error channel for each
warning, in their order and nothing else. -/
theorem recover_withVoice (config : Config α) (capture : Bytes) (voice : Voice) :
    (run (recover (config.withVoice voice) capture)).1 = (run (recover config capture)).1 ∧
      (run (recover (config.withVoice voice) capture)).2.events =
        (run (recover config capture)).2.events ∧
      (run (recover (config.withVoice voice) capture)).2.console =
        echo voice (run (recover config capture)).2.events := by
  obtain ⟨outcome, events, hrun⟩ := isVoiced_recover config capture
  have hvoice (other : Voice) : run (recover (config.withVoice other) capture) =
      (outcome, ⟨events, echo other events⟩) := (hrun other .empty).trans (by
    rw [Journal.empty_append])
  have hconfig := hvoice config.voice
  change run (recover config capture) = _ at hconfig
  rw [hvoice, hconfig]
  exact ⟨rfl, rfl, rfl⟩

end Decoding

end TapeSalvage.Recovery
