import TapeSalvage.Proofs.Recovery.Outcome

/-!
What recoveries tell, apart from what was told before them. No step of a recovery takes anything
back, so its journal is the journal before it with that of the same steps alone behind it. This
makes the journals of two recoveries comparable that have some of their steps in common.
-/
namespace TapeSalvage

namespace Console

theorem append_assoc (first second third : Console) :
    (first.append second).append third = first.append (second.append third) := by
  simp only [append, String.append_assoc]

theorem empty_append (console : Console) : empty.append console = console := by
  simp only [append, empty, String.empty_append]

theorem append_empty (console : Console) : console.append empty = console := by
  simp only [append, empty, String.append_empty]

theorem append_print (console : Console) (line : String) :
    console.append (empty.print line) = console.print line := by
  simp only [append, empty, print, write, String.empty_append, String.append_empty]

theorem append_complain (console : Console) (line : String) :
    console.append (empty.complain line) = console.complain line := by
  simp only [append, empty, complain, String.empty_append, String.append_empty,
    String.append_assoc]

end Console

namespace Recovery

variable {α ρ σ : Type}

namespace Journal

def append (journal later : Journal α) : Journal α :=
  ⟨journal.events ++ later.events, journal.console.append later.console⟩

theorem append_assoc (first second third : Journal α) :
    (first.append second).append third = first.append (second.append third) := by
  simp only [append, List.append_assoc, Console.append_assoc]

theorem empty_append (journal : Journal α) : empty.append journal = journal := by
  simp only [append, empty, List.nil_append, Console.empty_append]

theorem append_empty (journal : Journal α) : journal.append empty = journal := by
  simp only [append, empty, List.append_nil, Console.append_empty]

end Journal

/-- Whether a computation does the same after any journal, and only adds to it. -/
def Adds (attempt : Attempt α ρ) : Prop :=
  ∀ journal, (ExceptT.run attempt).run journal =
    ((run attempt).1, journal.append (run attempt).2)

theorem adds_lift (outcome : Except Fault ρ) : Adds (lift outcome : Attempt α ρ) := by
  intro journal
  change (outcome, journal) = (outcome, journal.append .empty)
  rw [journal.append_empty]

theorem adds_pure (value : ρ) : Adds (pure value : Attempt α ρ) := adds_lift (.ok value)

theorem adds_throw (fault : Fault) : Adds (throw fault : Attempt α ρ) := adds_lift (.error fault)

theorem adds_tell (event : Event α) : Adds (tell event) := by
  intro journal
  change (Except.ok (), Journal.mk (journal.events ++ [event]) journal.console) =
    (Except.ok (), journal.append ⟨[] ++ [event], .empty⟩)
  rw [Journal.append, List.nil_append, Console.append_empty]

/-- Two steps tell what the first tells, and then what the second tells. -/
theorem run_bind_of_adds {attempt : Attempt α ρ} {next : ρ → Attempt α σ}
    (hnext : ∀ value, Adds (next value)) :
    run (attempt >>= next) =
      match run attempt with
      | (.ok value, told) => ((run (next value)).1, told.append (run (next value)).2)
      | (.error fault, told) => (.error fault, told) := by
  unfold run
  rw [run_bind]
  cases hrun : (ExceptT.run attempt).run .empty with
  | mk outcome told =>
    cases outcome with
    | ok value => exact hnext value told
    | error fault => rfl

theorem Adds.bind {attempt : Attempt α ρ} {next : ρ → Attempt α σ} (h : Adds attempt)
    (hnext : ∀ value, Adds (next value)) : Adds (attempt >>= next) := by
  intro journal
  rw [run_bind, h journal, run_bind_of_adds hnext]
  cases run attempt with
  | mk outcome told =>
    cases outcome with
    | ok value =>
      dsimp only
      rw [hnext value, Journal.append_assoc]
    | error fault => rfl

/-- A handler tells behind what was told before the fault. -/
theorem run_tryCatch_of_adds {attempt : Attempt α ρ} {handler : Fault → Attempt α ρ}
    (hhandler : ∀ fault, Adds (handler fault)) :
    run (tryCatch attempt handler) =
      match run attempt with
      | (.ok value, told) => (.ok value, told)
      | (.error fault, told) => ((run (handler fault)).1, told.append (run (handler fault)).2) := by
  unfold run
  rw [run_tryCatch]
  cases hrun : (ExceptT.run attempt).run .empty with
  | mk outcome told =>
    cases outcome with
    | ok value => rfl
    | error fault => exact hhandler fault told

theorem Adds.tryCatch {attempt : Attempt α ρ} {handler : Fault → Attempt α ρ} (h : Adds attempt)
    (hhandler : ∀ fault, Adds (handler fault)) : Adds (tryCatch attempt handler) := by
  intro journal
  rw [run_tryCatch, h journal, run_tryCatch_of_adds hhandler]
  cases run attempt with
  | mk outcome told =>
    cases outcome with
    | ok value => rfl
    | error fault =>
      dsimp only
      rw [hhandler fault, Journal.append_assoc]

theorem adds_onConsole {voice : Voice} {change : Console → Console}
    (hchange : ∀ console : Console, console.append (change .empty) = change console) :
    Adds (onConsole voice change : Attempt α Unit) := by
  unfold onConsole
  split
  · exact adds_pure ()
  · intro journal
    change (Except.ok (), Journal.mk journal.events (change journal.console)) =
      (Except.ok (), journal.append ⟨[], change .empty⟩)
    rw [Journal.append, List.append_nil, hchange]

theorem adds_log (voice : Voice) (text : String) : Adds (log voice text : Attempt α Unit) :=
  (adds_onConsole fun console => console.append_print _).bind fun _ => adds_tell _

theorem adds_warn (voice : Voice) (text : String) : Adds (warn voice text : Attempt α Unit) :=
  (adds_onConsole fun console => console.append_complain _).bind fun _ => adds_tell _

theorem adds_report (progress : Progress α) : Adds (report progress) := adds_tell _

theorem adds_listImage (config : Config α) (image : Program.Image) :
    Adds (listImage config image) := (adds_report _).bind fun _ => adds_pure _

theorem adds_logSelection (voice : Voice) (blocks : List Block) (selection : Block.Selection)
    (checksums : Block.Tally) :
    Adds (logSelection voice blocks selection checksums : Attempt α Unit) := by
  unfold logSelection
  refine (adds_log _ _).bind fun _ => ?_
  refine (adds_log _ _).bind fun _ => ?_
  refine (adds_log _ _).bind fun _ => ?_
  split
  · refine (adds_warn _ _).bind fun _ => ?_
    exact adds_report _
  · exact adds_report _

theorem adds_recoverFromBlocks (config : Config α) (data : Bytes) (reading : Reading α) :
    Adds (recoverFromBlocks config data reading) := by
  unfold recoverFromBlocks
  dsimp only
  split
  · exact adds_throw _
  refine (adds_logSelection _ _ _ _).bind fun _ => ?_
  refine (adds_lift _).bind fun location => ?_
  refine (adds_log _ _).bind fun _ => ?_
  refine (adds_lift _).bind fun assembly => ?_
  split
  · refine (adds_warn _ _).bind fun _ => ?_
    refine (adds_log _ _).bind fun _ => ?_
    refine (adds_listImage _ _).bind fun _ => ?_
    exact adds_pure _
  · refine (adds_log _ _).bind fun _ => ?_
    refine (adds_listImage _ _).bind fun _ => ?_
    exact adds_pure _

theorem adds_recoverByScan (config : Config α) (data : Bytes) (reading : Reading α) :
    Adds (recoverByScan config data reading) := by
  unfold recoverByScan
  refine (adds_lift _).bind fun best => ?_
  refine (adds_log _ _).bind fun _ => ?_
  refine (adds_log _ _).bind fun _ => ?_
  refine (adds_log _ _).bind fun _ => ?_
  refine (adds_listImage _ _).bind fun _ => ?_
  exact adds_pure _

def fallbackText (fault : Fault) : String :=
  s!"Block recovery failed ({fault.message}); scanning decoded bytes"

/-- What the automatic mode does with a fault of blocks. -/
def fallBack (config : Config α) (data : Bytes) (reading : Reading α) (fault : Fault) :
    Attempt α (Result α) :=
  if fault.kind ≠ .exhaustion then throw fault
  else do
    warn config.voice (fallbackText fault)
    recoverByScan config data reading

theorem recoverDecoded_automatic (config : Config α) (data : Bytes) (reading : Reading α) :
    recoverDecoded { config with mode := .automatic } data reading =
      tryCatch (recoverFromBlocks config data reading) (fallBack config data reading) := rfl

theorem adds_fallBack (config : Config α) (data : Bytes) (reading : Reading α) (fault : Fault) :
    Adds (fallBack config data reading fault) := by
  unfold fallBack
  split
  · exact adds_throw fault
  · exact (adds_warn _ _).bind fun _ => adds_recoverByScan config data reading

theorem adds_recoverDecoded (config : Config α) (mode : Mode) (data : Bytes)
    (reading : Reading α) : Adds (recoverDecoded { config with mode } data reading) := by
  cases mode with
  | blocks => exact adds_recoverFromBlocks config data reading
  | scan => exact adds_recoverByScan config data reading
  | automatic =>
    rw [recoverDecoded_automatic]
    exact (adds_recoverFromBlocks config data reading).tryCatch (adds_fallBack config data reading)

end Recovery

end TapeSalvage
