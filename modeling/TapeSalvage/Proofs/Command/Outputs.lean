import TapeSalvage.Proofs.Command.Files
import TapeSalvage.Proofs.Command.Runs
import TapeSalvage.Proofs.Command.ToneTape

/-!
What commands leave in the files. A fault of the recovery is met before anything is written, so a
command that reports one leaves the files as they were. A recovery that ends well writes to the
files that its arguments name and to no others; where two of its paths lead to one file, the later
result is kept.
-/
namespace TapeSalvage.Command

variable {ρ σ : Type}

def Keeps (action : Action ρ) : Prop :=
  ∀ world, (runOn action world).2.store = world.store

/-- Whether an action never ends with a fault of the recovery. -/
def IsFaultless (action : Action ρ) : Prop :=
  ∀ world fault, (runOn action world).1 ≠ .error (.fault fault)

/-- Whether an action that ends with a fault of the recovery has left the files as they were. -/
def IsCareful (action : Action ρ) : Prop :=
  ∀ world fault, (runOn action world).1 = .error (.fault fault) →
    (runOn action world).2.store = world.store

theorem IsFaultless.bind {action : Action ρ} {next : ρ → Action σ} (h : IsFaultless action)
    (hnext : ∀ value, IsFaultless (next value)) : IsFaultless (action >>= next) := by
  intro world fault
  have hfirst := h world fault
  rcases runOn_bind_cases action next world with ⟨value, later, _, hbind⟩ |
    ⟨failure, later, hrun, hbind⟩
  · rw [hbind]
    exact hnext value later fault
  · rw [hrun] at hfirst
    rw [hbind]
    rintro ⟨⟩
    exact hfirst rfl

theorem IsFaultless.isCareful {action : Action ρ} (h : IsFaultless action) : IsCareful action :=
  fun world fault hfault => absurd hfault (h world fault)

theorem Keeps.isCareful {action : Action ρ} (h : Keeps action) : IsCareful action :=
  fun world _ _ => h world

/-- Steps that leave the files alone may come before any careful step. -/
theorem IsCareful.bind {action : Action ρ} {next : ρ → Action σ} (h : Keeps action)
    (hnext : ∀ value, IsCareful (next value)) : IsCareful (action >>= next) := by
  intro world fault
  have hfirst := h world
  rcases runOn_bind_cases action next world with ⟨value, later, hrun, hbind⟩ |
    ⟨failure, later, hrun, hbind⟩
  · rw [hrun] at hfirst
    rw [hbind]
    exact fun hfault => (hnext value later fault hfault).trans hfirst
  · rw [hrun] at hfirst
    rw [hbind]
    exact fun _ => hfirst

/-- A careful step may come before steps that know no fault. -/
theorem IsCareful.last {action : Action ρ} {next : ρ → Action σ} (h : IsCareful action)
    (hnext : ∀ value, IsFaultless (next value)) : IsCareful (action >>= next) := by
  intro world fault
  have hfirst := h world fault
  rcases runOn_bind_cases action next world with ⟨value, later, _, hbind⟩ |
    ⟨failure, later, hrun, hbind⟩
  · rw [hbind]
    exact fun hfault => absurd hfault (hnext value later fault)
  · rw [hrun] at hfirst
    rw [hbind]
    intro hfault
    obtain rfl := Except.error.inj hfault
    exact hfirst rfl

theorem keeps_orFail (result : Except Failure ρ) : Keeps (orFail result) := fun _ => rfl

theorem keeps_readFile (path : String) : Keeps (readFile path) := fun _ => rfl

theorem keeps_onConsole (change : Console → Console) : Keeps (onConsole change) := fun _ => rfl

theorem keeps_operand (arguments : Arguments) (what : String) : Keeps (operand arguments what) := by
  unfold operand
  cases arguments.operand? <;> exact fun _ => rfl

theorem keeps_runRecovery (attempt : Recovery.Attempt Float ρ) : Keeps (runRecovery attempt) :=
  fun _ => rfl

theorem isFaultless_onConsole (change : Console → Console) : IsFaultless (onConsole change) := by
  intro world fault h
  change Except.ok () = _ at h
  contradiction

theorem isFaultless_pure (value : ρ) : IsFaultless (pure value) := by
  intro world fault h
  change Except.ok value = _ at h
  contradiction

/-- A write fails for its path only. -/
theorem isFaultless_writeFile (path : String) (data : Bytes) :
    IsFaultless (writeFile path data) := by
  intro world fault
  change (runOn (orFail (world.store.write path data) >>= fun store =>
    modify fun world => { world with store := store }) world).1 ≠ _
  rw [runOn_bind, runOn_orFail]
  unfold Store.write
  cases world.store.place path <;> rintro ⟨⟩

theorem isFaultless_writeResult (path : String) (data : Bytes) :
    IsFaultless (writeResult path data) := by
  unfold writeResult
  split
  · exact (isFaultless_writeFile path data).bind fun _ => isFaultless_onConsole _
  · exact isFaultless_pure ()

theorem isCareful_recover (words : List String) : IsCareful (recover words) := by
  unfold recover
  refine IsCareful.bind (keeps_orFail _) fun arguments => ?_
  refine IsCareful.bind (keeps_operand _ _) fun path => ?_
  refine IsCareful.bind (keeps_orFail _) fun config => ?_
  refine IsCareful.bind (keeps_readFile _) fun capture => ?_
  refine IsCareful.bind (keeps_runRecovery _) fun result => ?_
  refine ((isFaultless_writeResult _ _).bind fun _ => ?_).isCareful
  exact (isFaultless_writeResult _ _).bind fun _ => isFaultless_writeResult _ _

theorem isCareful_list (words : List String) : IsCareful (list words) := by
  unfold list
  refine IsCareful.bind (keeps_orFail _) fun arguments => ?_
  refine IsCareful.bind (keeps_operand _ _) fun path => ?_
  refine IsCareful.bind (keeps_readFile _) fun data => ?_
  refine IsCareful.bind (keeps_orFail _) fun image => ?_
  refine IsCareful.bind (keeps_orFail _) fun skip => ?_
  dsimp only
  split
  · exact (isFaultless_writeFile _ _).isCareful
  · exact (keeps_onConsole _).isCareful

theorem isCareful_strings (words : List String) : IsCareful (strings words) := by
  unfold strings
  refine IsCareful.bind (keeps_orFail _) fun arguments => ?_
  refine IsCareful.bind (keeps_operand _ _) fun path => ?_
  refine IsCareful.bind (keeps_readFile _) fun capture => ?_
  refine IsCareful.bind (keeps_runRecovery _) fun decoded => ?_
  refine IsCareful.bind (keeps_orFail _) fun least => ?_
  exact ((isFaultless_writeFile _ _).bind fun _ => isFaultless_onConsole _).isCareful

theorem isCareful_group (words : List String) : IsCareful (group words) := by
  unfold group
  refine IsCareful.bind (keeps_orFail _) fun arguments => ?_
  refine IsCareful.bind (keeps_readFile _) fun data => ?_
  exact ((isFaultless_writeFile _ _).bind fun _ => isFaultless_onConsole _).isCareful

theorem keeps_reportFailure (failure : Failure) : Keeps (reportFailure failure) := by
  intro world
  cases failure with
  | fault cause =>
    unfold reportFailure
    dsimp only
    cases cause.origin? with
    | none => rfl
    | some origin => cases cause.hint? <;> rfl
  | _ => rfl

/-- Only a fault of the recovery is reported by an exit code. -/
theorem exists_fault_of_reportFailure {failure : Failure} {world after : World} {code : Nat}
    (h : runOn (reportFailure failure) world = (.ok code, after)) :
    ∃ fault, failure = .fault fault := by
  cases failure with
  | fault cause => exact ⟨cause, rfl⟩
  | _ =>
    obtain ⟨hcode, _⟩ := Prod.mk.inj h
    contradiction

/-- A command is one that is careful with the files, or it is not known. -/
theorem dispatch_cases (command : String) (words : List String) :
    (∃ action : Action Unit, IsCareful action ∧
      dispatch command words = do action; return 0) ∨
    dispatch command words = do complain usage; return 1 := by
  unfold dispatch
  split
  · exact Or.inl ⟨recover words, isCareful_recover words, rfl⟩
  · exact Or.inl ⟨list words, isCareful_list words, rfl⟩
  · exact Or.inl ⟨strings words, isCareful_strings words, rfl⟩
  · exact Or.inl ⟨group words, isCareful_group words, rfl⟩
  · exact Or.inr rfl

theorem isCareful_dispatch (command : String) (words : List String) :
    IsCareful (dispatch command words) := by
  rcases dispatch_cases command words with ⟨action, hcareful, hdispatch⟩ | hdispatch
  · rw [hdispatch]
    exact hcareful.last fun _ => isFaultless_pure 0
  · rw [hdispatch]
    exact Keeps.isCareful fun _ => rfl

theorem store_of_dispatch_eq_ok_one {command : String} {words : List String} {before after : World}
    (h : runOn (dispatch command words) before = (.ok 1, after)) : after.store = before.store := by
  rcases dispatch_cases command words with ⟨action, _, hdispatch⟩ | hdispatch
  · rw [hdispatch] at h
    obtain ⟨_, later, _, hcode⟩ := runOn_bind_eq_ok_iff.mp h
    obtain ⟨hzero, _⟩ := Prod.mk.inj hcode
    exact absurd (Except.ok.inj hzero) Nat.zero_ne_one
  · rw [hdispatch] at h
    obtain ⟨_, rfl⟩ := Prod.mk.inj h
    rfl

/-- A command line that ends with an exit code of one leaves the files as they were. -/
theorem store_of_execute_eq_ok_one {words : List String} {before after : World}
    (h : runOn (execute words) before = (.ok 1, after)) : after.store = before.store := by
  cases words with
  | nil =>
    obtain ⟨_, rfl⟩ := Prod.mk.inj h
    rfl
  | cons command words =>
    rw [runOn_execute_cons] at h
    cases hrun : runOn (dispatch command words) before with
    | mk outcome later =>
      rw [hrun] at h
      cases outcome with
      | ok code =>
        obtain ⟨hcode, rfl⟩ := Prod.mk.inj h
        obtain rfl := Except.ok.inj hcode
        exact store_of_dispatch_eq_ok_one hrun
      | error failure =>
        obtain ⟨fault, rfl⟩ := exists_fault_of_reportFailure h
        have hreport := keeps_reportFailure (.fault fault) later
        have hdispatch := isCareful_dispatch command words before fault (congrArg Prod.fst hrun)
        dsimp only at h
        rw [h] at hreport
        rw [hrun] at hdispatch
        exact hreport.trans hdispatch

abbrev Outputs := List (String × Bytes)

/-- The last of the results that are written to the file of a name. -/
def Outputs.last? (outputs : Outputs) (store : Store) (name : String) : Option Bytes :=
  ((outputs.filter fun output => store.place output.1 = .file name).getLast?).map (·.2)

/-- Whether the files are those from before with all results in their places, those with an empty
path left out. -/
def WritesResults : Outputs → Store → Store → Prop
  | [], store, next => next = store
  | output :: rest, store, next =>
    ∃ middle, WritesResult output.1 output.2 store middle ∧ WritesResults rest middle next

theorem Outputs.last?_cons (output : String × Bytes) (rest : Outputs) (store : Store)
    (name : String) :
    Outputs.last? (output :: rest) store name = (rest.last? store name).or
      (if store.place output.1 = .file name then some output.2 else none) := by
  unfold Outputs.last?
  by_cases hplace : store.place output.1 = .file name
  · rw [List.filter_cons_of_pos (by simpa using hplace), List.getLast?_cons, if_pos hplace]
    cases (rest.filter fun output => store.place output.1 = .file name).getLast? <;> rfl
  · rw [List.filter_cons_of_neg (by simpa using hplace), if_neg hplace, Option.or_none]

theorem folders_of_writesResult {path : String} {data : Bytes} {store next : Store}
    (h : WritesResult path data store next) : next.folders = store.folders := by
  unfold WritesResult at h
  split at h
  · rw [h]
  · exact Store.folders_of_write h

theorem place_eq_file_congr {store other : Store} (h : store.folders = other.folders)
    (path name : String) : store.place path = .file name ↔ other.place path = .file name :=
  ⟨Store.place_congr h, Store.place_congr h.symm⟩

/-- A result is in the file that its path leads to, and all other files are as they were. -/
theorem get?_of_writesResult {path : String} {data : Bytes} {store next : Store}
    (h : WritesResult path data store next) (name : String) :
    next.get? name = if store.place path = .file name then some data else store.get? name := by
  unfold WritesResult at h
  split at h
  · rename_i hpath
    rw [h, hpath, if_neg (by rintro ⟨⟩)]
  · obtain ⟨found, hfound, rfl⟩ := Store.write_eq_ok_iff.mp h
    rw [hfound]
    by_cases hname : name = found
    · rw [hname, if_pos rfl, Store.get?_put_self]
    · have hplace : Place.file found ≠ .file name := fun heq => hname (Place.file.inj heq).symm
      rw [if_neg hplace, Store.get?_put_of_ne store data hname]

theorem WritesResults.folders_eq {outputs : Outputs} {store next : Store}
    (h : WritesResults outputs store next) : next.folders = store.folders := by
  induction outputs generalizing store with
  | nil => rw [h]
  | cons output rest ih =>
    obtain ⟨middle, hfirst, hrest⟩ := h
    exact (ih hrest).trans (folders_of_writesResult hfirst)

theorem Outputs.last?_congr {store other : Store} (h : store.folders = other.folders)
    (outputs : Outputs) (name : String) :
    outputs.last? store name = outputs.last? other name := by
  unfold Outputs.last?
  congr 2
  apply List.filter_congr
  intro output _
  rw [decide_eq_decide]
  exact place_eq_file_congr h output.1 name

/-- Every file has the last of the results that were written to it; a file to which none was written
is as it was. -/
theorem WritesResults.get?_eq {outputs : Outputs} {store next : Store}
    (h : WritesResults outputs store next) (name : String) :
    next.get? name = (outputs.last? store name).or (store.get? name) := by
  induction outputs generalizing store with
  | nil =>
    rw [h]
    rfl
  | cons output rest ih =>
    obtain ⟨middle, hfirst, hrest⟩ := h
    rw [ih hrest, Outputs.last?_congr (folders_of_writesResult hfirst) rest name,
      get?_of_writesResult hfirst name, Outputs.last?_cons, Option.or_assoc]
    split
    · rfl
    · rw [Option.none_or]

theorem WritesResults.exists_place {outputs : Outputs} {store next : Store}
    (h : WritesResults outputs store next) :
    ∀ output ∈ outputs, output.1 ≠ "" → ∃ name, store.place output.1 = .file name := by
  induction outputs generalizing store with
  | nil => simp
  | cons output rest ih =>
    obtain ⟨middle, hfirst, hrest⟩ := h
    rw [List.forall_mem_cons]
    constructor
    · intro hpath
      obtain ⟨name, hplace, _⟩ := Store.write_eq_ok_iff.mp ((writesResult_iff hpath).mp hfirst)
      exact ⟨name, hplace⟩
    · intro other hother hpath
      obtain ⟨name, hplace⟩ := ih hrest other hother hpath
      exact ⟨name, Store.place_congr (folders_of_writesResult hfirst) hplace⟩

def recoveryOutputs (arguments : Arguments) (result : Recovery.Result Float) : Outputs :=
  [((arguments.value? "decoded").getD "", result.decoded),
    ((arguments.value? "prg").getD "recovered.prg", result.image.bytes),
    ((arguments.value? "bas").getD "recovered.bas.txt", Text.encode result.listing)]

/-- A command line that ends with an exit code of one has left all files as they were. A recovery
that ends with an exit code of zero has written its three results, except those with an empty path;
a file to which several of them go has the last one, and all other files are as they were. -/
theorem store_of_execute (words : List String) (before after : World) :
    (runOn (execute words) before = (.ok 1, after) → after.store = before.store) ∧
    (runOn (execute ("recover" :: words)) before = (.ok 0, after) →
      ∃ arguments path config capture result,
        Arguments.read recoverForms words = .ok arguments ∧ arguments.operand? = some path ∧
        recoverConfig arguments path = .ok config ∧ before.store.read path = .ok capture ∧
        (Recovery.run (Recovery.recover config capture)).1 = .ok result ∧
        (∀ output ∈ recoveryOutputs arguments result, output.1 ≠ "" →
          ∃ name, before.store.place output.1 = .file name) ∧
        (∀ name, after.store.get? name =
          ((recoveryOutputs arguments result).last? before.store name).or
            (before.store.get? name)) ∧
        after.store.folders = before.store.folders) := by
  refine ⟨store_of_execute_eq_ok_one, fun hrun => ?_⟩
  have hrecover := (runOn_execute_eq_ok_zero_iff rfl).mp hrun
  obtain ⟨arguments, path, config, capture, result, first, second, hread, hpath, hconfig, hcapture,
    hrecovered, hfirst, hsecond, hlast⟩ := (runOn_recover_iff before).mp ⟨after.console, hrecover⟩
  have hwrites : WritesResults (recoveryOutputs arguments result) before.store after.store :=
    ⟨first, hfirst, second, hsecond, after.store, hlast, rfl⟩
  rw [← (Recovery.yields_recover config capture).run_eq] at hrecovered
  exact ⟨arguments, path, config, capture, result, hread, hpath, hconfig, hcapture, hrecovered,
    hwrites.exists_place, hwrites.get?_eq, hwrites.folders_eq⟩

/-- A recovery that meets a fault ends the command with it. -/
theorem exists_runOn_recover_of_fault {words : List String} {arguments : Arguments} {path : String}
    {config : Recovery.Config Float} {capture : Bytes} {fault : Fault} {before : World}
    (hread : Arguments.read recoverForms words = .ok arguments)
    (hpath : arguments.operand? = some path) (hconfig : recoverConfig arguments path = .ok config)
    (hcapture : before.store.read path = .ok capture)
    (hfault : Recovery.recovered config capture = .error fault) :
    ∃ later, runOn (recover words) before = (.error (.fault fault), later) := by
  unfold recover
  rw [runOn_bind_of_ok (runOn_orFail_eq_ok_iff.mpr ⟨hread, rfl⟩),
    runOn_bind_of_ok (runOn_operand_eq_ok_iff.mpr ⟨hpath, rfl⟩),
    runOn_bind_of_ok (runOn_orFail_eq_ok_iff.mpr ⟨hconfig, rfl⟩),
    runOn_bind_of_ok (runOn_readFile_eq_ok_iff.mpr ⟨hcapture, rfl⟩), runOn_bind, runOn_runRecovery,
    (Recovery.yields_recover config capture).run_eq, hfault]
  exact ⟨_, rfl⟩

/-- A tape without blocks, first recovered from blocks only, and then by scanning with two paths
that lead to one file, where the listing is kept. -/
theorem store_of_execute_toneTape :
    (∃ after, runOn (execute ["recover", "a.tap", "--mode", "blocks"]) toneWorld = (.ok 1, after) ∧
      after.store = toneWorld.store) ∧
    ∃ (result : Recovery.Result Float) (after : World),
      (Recovery.run (Recovery.recover scanConfig toneTape)).1 = .ok result ∧
      runOn (execute ["recover", "a.tap", "--mode", "scan", "--prg", "b", "--bas", "./b"])
        toneWorld = (.ok 0, after) ∧
      after.store.get? "b" = some (Text.encode result.listing) ∧
      after.store.get? "a.tap" = some toneTape := by
  constructor
  · have hread : Arguments.read recoverForms ["a.tap", "--mode", "blocks"] =
        .ok ⟨[("mode", "blocks")], [], ["a.tap"]⟩ := rfl
    have hfault : Recovery.recovered { scanConfig with mode := .blocks } toneTape =
        .error .blocksMissing := by
      unfold Recovery.recovered
      rw [decoded_toneTape rfl]
      rfl
    obtain ⟨later, hrecover⟩ : ∃ later, runOn (recover ["a.tap", "--mode", "blocks"]) toneWorld =
        (.error (.fault .blocksMissing), later) :=
      exists_runOn_recover_of_fault hread rfl rfl rfl hfault
    have hrun : runOn (execute ["recover", "a.tap", "--mode", "blocks"]) toneWorld =
        runOn (reportFailure (.fault .blocksMissing)) later := by
      have hdispatch : dispatch "recover" ["a.tap", "--mode", "blocks"] = do
          recover ["a.tap", "--mode", "blocks"]
          return 0 := rfl
      rw [runOn_execute_cons, hdispatch, runOn_bind, hrecover]
    exact ⟨_, hrun, (store_of_execute _ _ _).1 hrun⟩
  · obtain ⟨result, hresult⟩ := exists_recovered_toneTape
    have hread : Arguments.read recoverForms ["a.tap", "--mode", "scan", "--prg", "b", "--bas",
        "./b"] = .ok ⟨[("bas", "./b"), ("prg", "b"), ("mode", "scan")], [], ["a.tap"]⟩ := rfl
    have hprogram : toneWorld.store.write "b" result.image.bytes =
        .ok ⟨[("a.tap", toneTape), ("b", result.image.bytes)], []⟩ := rfl
    have hlisting : Store.write ⟨[("a.tap", toneTape), ("b", result.image.bytes)], []⟩ "./b"
        (Text.encode result.listing) =
          .ok ⟨[("a.tap", toneTape), ("b", Text.encode result.listing)], []⟩ := rfl
    obtain ⟨console, hrecover⟩ := (runOn_recover_iff toneWorld).mpr ⟨_, "a.tap", scanConfig,
      toneTape, result, _, _, hread, rfl, rfl, rfl, hresult, writesResult_empty_iff.mpr rfl,
      (writesResult_iff (by decide)).mpr hprogram, (writesResult_iff (by decide)).mpr hlisting⟩
    have hrun : runOn (execute ["recover", "a.tap", "--mode", "scan", "--prg", "b", "--bas", "./b"])
        toneWorld = _ := (runOn_execute_eq_ok_zero_iff rfl).mpr hrecover
    obtain ⟨arguments, path, config, capture, found, hwords, hpath, hconfig, hcapture, hfound, _,
      hfiles, _⟩ := (store_of_execute _ _ _).2 hrun
    obtain rfl := Except.ok.inj (hread.symm.trans hwords)
    obtain rfl := Option.some.inj hpath
    obtain rfl := Except.ok.inj hconfig
    obtain rfl := Except.ok.inj hcapture
    rw [← (Recovery.yields_recover _ _).run_eq] at hresult
    obtain rfl := Except.ok.inj (hresult.symm.trans hfound)
    have hempty : toneWorld.store.place "" = .nowhere := rfl
    have hdirect : toneWorld.store.place "b" = .file "b" := rfl
    have hround : toneWorld.store.place "./b" = .file "b" := rfl
    have hkept : toneWorld.store.get? "a.tap" = some toneTape := rfl
    refine ⟨result, _, hresult, hrun, (hfiles "b").trans ?_, (hfiles "a.tap").trans ?_⟩
    · change ((Outputs.last? [("", _), ("b", _), ("./b", _)] _ _).or _) = _
      simp [Outputs.last?, hempty, hdirect, hround]
    · change ((Outputs.last? [("", _), ("b", _), ("./b", _)] _ _).or _) = _
      simp [Outputs.last?, hempty, hdirect, hround, hkept]

end TapeSalvage.Command
