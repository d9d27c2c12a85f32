import TapeSalvage.Command.Execute
import TapeSalvage.Proofs.Fault.Steps

/-!
What commands do step by step. An action that ends well ended well in each of its steps, and its
files are those that the steps left one after another. Only a write changes the files, and an exit
code of zero is never the report of a failure.
-/
namespace TapeSalvage.Command

variable {ρ σ : Type} {world after : World}

def runOn (action : Action ρ) (world : World) : Except Failure ρ × World :=
  (ExceptT.run action).run world

theorem runOn_bind (action : Action ρ) (next : ρ → Action σ) (world : World) :
    runOn (action >>= next) world =
      match runOn action world with
      | (.ok value, later) => runOn (next value) later
      | (.error failure, later) => (.error failure, later) := by
  unfold runOn
  rw [run_bind]
  cases (ExceptT.run action).run world with
  | mk outcome later => cases outcome <;> rfl

/-- Two actions in a row end as the second one does, or as the first one fails. -/
theorem runOn_bind_cases (action : Action ρ) (next : ρ → Action σ) (world : World) :
    (∃ value later, runOn action world = (.ok value, later) ∧
      runOn (action >>= next) world = runOn (next value) later) ∨
    ∃ failure later, runOn action world = (.error failure, later) ∧
      runOn (action >>= next) world = (.error failure, later) := by
  rw [runOn_bind]
  cases hrun : runOn action world with
  | mk outcome later =>
    cases outcome with
    | ok value => exact Or.inl ⟨value, later, rfl, rfl⟩
    | error failure => exact Or.inr ⟨failure, later, rfl, rfl⟩

theorem runOn_bind_of_ok {action : Action ρ} {value : ρ}
    (h : runOn action world = (.ok value, after))
    (next : ρ → Action σ) : runOn (action >>= next) world = runOn (next value) after := by
  rw [runOn_bind, h]

theorem runOn_bind_eq_ok_iff {action : Action ρ} {next : ρ → Action σ} {result : σ} :
    runOn (action >>= next) world = (.ok result, after) ↔
      ∃ value later, runOn action world = (.ok value, later) ∧
        runOn (next value) later = (.ok result, after) := by
  constructor
  · intro h
    rcases runOn_bind_cases action next world with ⟨value, later, hfirst, hbind⟩ | ⟨_, _, _, hbind⟩
    · exact ⟨value, later, hfirst, hbind ▸ h⟩
    · obtain ⟨hfailed, _⟩ := Prod.mk.inj (hbind.symm.trans h)
      contradiction
  · rintro ⟨value, later, hfirst, hrest⟩
    rw [runOn_bind_of_ok hfirst, hrest]

theorem runOn_orFail (result : Except Failure ρ) (world : World) :
    runOn (orFail result) world = (result, world) := rfl

theorem runOn_orFail_eq_ok_iff {result : Except Failure ρ} {value : ρ} :
    runOn (orFail result) world = (.ok value, after) ↔ result = .ok value ∧ world = after := by
  rw [runOn_orFail, Prod.mk.injEq]

theorem runOn_readFile (path : String) (world : World) :
    runOn (readFile path) world = (world.store.read path, world) := rfl

theorem runOn_readFile_eq_ok_iff {path : String} {data : Bytes} :
    runOn (readFile path) world = (.ok data, after) ↔
      world.store.read path = .ok data ∧ world = after := by
  rw [runOn_readFile, Prod.mk.injEq]

theorem runOn_operand_eq_ok_iff {arguments : Arguments} {what path : String} :
    runOn (operand arguments what) world = (.ok path, after) ↔
      arguments.operand? = some path ∧ world = after := by
  unfold operand
  cases arguments.operand? with
  | none =>
    change (Except.error _, world) = (Except.ok path, after) ↔ _
    simp
  | some value =>
    change (Except.ok value, world) = (Except.ok path, after) ↔ _
    simp

theorem runOn_writeFile_eq_ok_iff {path : String} {data : Bytes} :
    runOn (writeFile path data) world = (.ok (), after) ↔
      ∃ store, world.store.write path data = .ok store ∧ after = { world with store } := by
  change runOn (orFail (world.store.write path data) >>= fun store =>
    modify fun world => { world with store }) world = _ ↔ _
  rw [runOn_bind_eq_ok_iff]
  constructor
  · rintro ⟨store, later, hwrite, hrest⟩
    obtain ⟨hstore, rfl⟩ := runOn_orFail_eq_ok_iff.mp hwrite
    exact ⟨store, hstore, (Prod.mk.inj hrest).2.symm⟩
  · rintro ⟨store, hstore, rfl⟩
    exact ⟨store, world, runOn_orFail_eq_ok_iff.mpr ⟨hstore, rfl⟩, rfl⟩

/-- Whether the files are those from before with a result in its place, unless its path is empty. -/
def WritesResult (path : String) (data : Bytes) (store next : Store) : Prop :=
  if path = "" then next = store else store.write path data = .ok next

theorem runOn_writeResult_iff (world : World) {path : String} {data : Bytes} {store : Store} :
    (∃ console, runOn (writeResult path data) world = (.ok (), ⟨store, console⟩)) ↔
      WritesResult path data world.store store := by
  unfold writeResult WritesResult
  by_cases hpath : path = ""
  · rw [if_neg (not_not_intro hpath), if_pos hpath]
    constructor
    · rintro ⟨console, h⟩
      exact congrArg World.store (Prod.mk.inj h).2.symm
    · rintro rfl
      exact ⟨world.console, rfl⟩
  · rw [if_pos hpath, if_neg hpath]
    constructor
    · rintro ⟨console, h⟩
      obtain ⟨_, later, hwrite, hprint⟩ := runOn_bind_eq_ok_iff.mp h
      obtain ⟨next, hnext, rfl⟩ := runOn_writeFile_eq_ok_iff.mp hwrite
      obtain rfl : next = store := congrArg World.store (Prod.mk.inj hprint).2
      exact hnext
    · intro h
      have hwrite := runOn_writeFile_eq_ok_iff.mpr ⟨store, h, rfl⟩
      exact ⟨world.console.print s!"Wrote: {path}",
        runOn_bind_eq_ok_iff.mpr ⟨(), _, hwrite, rfl⟩⟩

theorem writesResult_iff {path : String} {data : Bytes} {store next : Store} (h : path ≠ "") :
    WritesResult path data store next ↔ store.write path data = .ok next := by
  unfold WritesResult
  rw [if_neg h]

theorem writesResult_empty_iff {data : Bytes} {store next : Store} :
    WritesResult "" data store next ↔ next = store := by
  unfold WritesResult
  rw [if_pos rfl]

theorem runOn_runRecovery (attempt : Recovery.Attempt Float ρ) (world : World) :
    runOn (runRecovery attempt) world =
      ((Recovery.run attempt).1.mapError .fault,
        { world with console := world.console.append (Recovery.run attempt).2.console }) := rfl

theorem runOn_runRecovery_of_ok {attempt : Recovery.Attempt Float ρ} {value : ρ}
    (h : (Recovery.run attempt).1 = .ok value) (world : World) :
    runOn (runRecovery attempt) world =
      (.ok value, { world with
        console := world.console.append (Recovery.run attempt).2.console }) := by
  rw [runOn_runRecovery, h]
  rfl

/-- A report of a failure never ends with an exit code of zero. -/
theorem runOn_reportFailure_ne (failure : Failure) (world : World) :
    (runOn (reportFailure failure) world).1 ≠ .ok 0 := by
  have hthrow : ∀ failure, (runOn (throw failure : Action Nat) world).1 ≠ .ok 0 := by
    intro failure h
    change Except.error failure = Except.ok 0 at h
    contradiction
  cases failure with
  | fault cause =>
    unfold reportFailure
    dsimp only
    cases cause.origin? with
    | none => exact hthrow _
    | some origin =>
      obtain ⟨stage, step⟩ := origin
      cases cause.hint? <;> exact fun h => absurd (Except.ok.inj h) Nat.one_ne_zero
  | _ => exact hthrow _

theorem runOn_execute_cons (command : String) (words : List String) (world : World) :
    runOn (execute (command :: words)) world =
      match runOn (dispatch command words) world with
      | (.ok code, later) => (.ok code, later)
      | (.error failure, later) => runOn (reportFailure failure) later := by
  unfold runOn execute
  rw [run_tryCatch]
  cases (ExceptT.run (dispatch command words)).run world with
  | mk outcome later => cases outcome <;> rfl

/-- A command ends with an exit code of zero exactly if its action ends well. -/
theorem runOn_execute_eq_ok_zero_iff {command : String} {words : List String} {action : Action Unit}
    (h : dispatch command words = do action; return 0) :
    runOn (execute (command :: words)) world = (.ok 0, after) ↔
      runOn action world = (.ok (), after) := by
  have hrun : runOn (execute (command :: words)) world = (.ok 0, after) ↔
      runOn (dispatch command words) world = (.ok 0, after) := by
    rw [runOn_execute_cons]
    cases runOn (dispatch command words) world with
    | mk outcome later =>
      cases outcome with
      | ok code => rfl
      | error failure =>
        constructor
        · intro hcode
          exact absurd (congrArg Prod.fst hcode) (runOn_reportFailure_ne failure later)
        · intro hcode
          obtain ⟨hfailed, _⟩ := Prod.mk.inj hcode
          contradiction
  rw [hrun, h, runOn_bind_eq_ok_iff]
  constructor
  · rintro ⟨_, later, haction, hcode⟩
    obtain rfl : later = after := (Prod.mk.inj hcode).2
    exact haction
  · intro haction
    exact ⟨(), after, haction, rfl⟩

end TapeSalvage.Command
