import TapeSalvage.Proofs.Command.Steps
import TapeSalvage.Proofs.Recovery.Outcome

/-!
What commands do as a whole. Each is the run of its steps: the words are read, then the
file that they name, and what comes of it is written.
-/
namespace TapeSalvage.Command

variable {before : World}

/-- A set-up skips the bytes that its arguments ask for and lists in the strict style. -/
theorem exists_skip_of_recoverConfig {arguments : Arguments} {path : String}
    {config : Recovery.Config Float} (h : recoverConfig arguments path = .ok config) :
    ∃ skip, Arguments.count "--start-skip" 0 (arguments.value? "start-skip") = .ok skip ∧
      config.listingRules = { Listing.Rules.standard with startSkip := skip } := by
  obtain ⟨mode, _, h⟩ := (bind_eq_ok_iff _ _ _).mp h
  obtain ⟨copy, _, h⟩ := (bind_eq_ok_iff _ _ _).mp h
  obtain ⟨strategy, _, h⟩ := (bind_eq_ok_iff _ _ _).mp h
  obtain ⟨skip, hskip, h⟩ := (bind_eq_ok_iff _ _ _).mp h
  obtain rfl := Except.ok.inj h
  exact ⟨skip, hskip, rfl⟩

/-- A recovery ends well exactly if its words are read, a program is recovered from its capture, and
the decoded bytes, the program and the listing are written, in this order. -/
theorem runOn_recover_iff (before : World) {words : List String} {store : Store} :
    (∃ console, runOn (recover words) before = (.ok (), ⟨store, console⟩)) ↔
      ∃ arguments path config capture result, ∃ first second : Store,
        Arguments.read recoverForms words = .ok arguments ∧ arguments.operand? = some path ∧
        recoverConfig arguments path = .ok config ∧ before.store.read path = .ok capture ∧
        Recovery.recovered config capture = .ok result ∧
        WritesResult ((arguments.value? "decoded").getD "") result.decoded before.store first ∧
        WritesResult ((arguments.value? "prg").getD "recovered.prg") result.image.bytes first
          second ∧
        WritesResult ((arguments.value? "bas").getD "recovered.bas.txt")
          (Text.encode result.listing) second store := by
  unfold recover
  constructor
  · rintro ⟨console, h⟩
    obtain ⟨arguments, _, harguments, h⟩ := runOn_bind_eq_ok_iff.mp h
    obtain ⟨hread, rfl⟩ := runOn_orFail_eq_ok_iff.mp harguments
    obtain ⟨path, _, hoperand, h⟩ := runOn_bind_eq_ok_iff.mp h
    obtain ⟨hpath, rfl⟩ := runOn_operand_eq_ok_iff.mp hoperand
    obtain ⟨config, _, hconfig, h⟩ := runOn_bind_eq_ok_iff.mp h
    obtain ⟨hsetup, rfl⟩ := runOn_orFail_eq_ok_iff.mp hconfig
    obtain ⟨capture, _, hcapture, h⟩ := runOn_bind_eq_ok_iff.mp h
    obtain ⟨hfile, rfl⟩ := runOn_readFile_eq_ok_iff.mp hcapture
    obtain ⟨result, told, hresult, h⟩ := runOn_bind_eq_ok_iff.mp h
    rw [runOn_runRecovery] at hresult
    obtain ⟨hrecovered, rfl⟩ := Prod.mk.inj hresult
    rw [mapError_eq_ok_iff, (Recovery.yields_recover config capture).run_eq] at hrecovered
    obtain ⟨_, first, hdecoded, h⟩ := runOn_bind_eq_ok_iff.mp h
    obtain ⟨_, second, hprogram, hlisting⟩ := runOn_bind_eq_ok_iff.mp h
    have hfirst := (runOn_writeResult_iff _).mp ⟨first.console, hdecoded⟩
    exact ⟨arguments, path, config, capture, result, first.store, second.store, hread, hpath,
      hsetup, hfile, hrecovered, hfirst,
      (runOn_writeResult_iff first).mp ⟨second.console, hprogram⟩,
      (runOn_writeResult_iff second).mp ⟨console, hlisting⟩⟩
  · rintro ⟨arguments, path, config, capture, result, first, second, hread, hpath, hsetup, hfile,
      hrecovered, hfirst, hsecond, hlast⟩
    rw [← (Recovery.yields_recover config capture).run_eq] at hrecovered
    obtain ⟨told, hdecoded⟩ := (runOn_writeResult_iff ⟨before.store, before.console.append
      (Recovery.run (Recovery.recover config capture)).2.console⟩).mpr hfirst
    obtain ⟨more, hprogram⟩ := (runOn_writeResult_iff ⟨first, told⟩).mpr hsecond
    obtain ⟨console, hlisting⟩ := (runOn_writeResult_iff ⟨second, more⟩).mpr hlast
    refine ⟨console, ?_⟩
    rw [runOn_bind_of_ok (runOn_orFail_eq_ok_iff.mpr ⟨hread, rfl⟩),
      runOn_bind_of_ok (runOn_operand_eq_ok_iff.mpr ⟨hpath, rfl⟩),
      runOn_bind_of_ok (runOn_orFail_eq_ok_iff.mpr ⟨hsetup, rfl⟩),
      runOn_bind_of_ok (runOn_readFile_eq_ok_iff.mpr ⟨hfile, rfl⟩),
      runOn_bind_of_ok (runOn_runRecovery_of_ok hrecovered before), runOn_bind_of_ok hdecoded,
      runOn_bind_of_ok hprogram, hlisting]

/-- A program file that can be read is listed to a file. -/
theorem runOn_list {words : List String} {arguments : Arguments} {path out : String} {data : Bytes}
    {image : Program.Image} {skip : Int} {store : Store}
    (harguments : Arguments.read listForms words = .ok arguments)
    (hpath : arguments.operand? = some path) (hdata : before.store.read path = .ok data)
    (himage : Program.Image.ofBytes data = .ok image)
    (hskip : Arguments.count "--start-skip" 0 (arguments.value? "start-skip") = .ok skip)
    (hstyle : arguments.isSet "layout" = false) (hout : arguments.value? "out" = some out)
    (hne : out ≠ "")
    (hwrite : before.store.write out (Text.encode (Listing.format (Listing.lines
      { Listing.Rules.standard with startSkip := skip } image))) = .ok store) :
    runOn (list words) before = (.ok (), { before with store }) := by
  have hprogram : runOn (orFault (Program.Image.ofBytes data)) before = (.ok image, before) :=
    runOn_orFail_eq_ok_iff.mpr ⟨(mapError_eq_ok_iff _ _ _).mpr himage, rfl⟩
  unfold list
  rw [runOn_bind_of_ok (runOn_orFail_eq_ok_iff.mpr ⟨harguments, rfl⟩),
    runOn_bind_of_ok (runOn_operand_eq_ok_iff.mpr ⟨hpath, rfl⟩),
    runOn_bind_of_ok (runOn_readFile_eq_ok_iff.mpr ⟨hdata, rfl⟩), runOn_bind_of_ok hprogram,
    runOn_bind_of_ok (runOn_orFail_eq_ok_iff.mpr ⟨hskip, rfl⟩), hstyle, hout]
  dsimp only [Option.getD]
  rw [if_pos hne]
  exact runOn_writeFile_eq_ok_iff.mpr ⟨store, hwrite, rfl⟩

/-- A dump ends well exactly if its words are read, bytes are decoded from its capture, and the
strings in them are written. -/
theorem runOn_strings_iff (before : World) {words : List String} {store : Store} :
    (∃ console, runOn (strings words) before = (.ok (), ⟨store, console⟩)) ↔
      ∃ arguments path capture decoded, ∃ reading : Recovery.Reading Float, ∃ least,
        Arguments.read stringsForms words = .ok arguments ∧ arguments.operand? = some path ∧
        before.store.read path = .ok capture ∧
        (Recovery.run (Recovery.decode { Recovery.Config.standard with name := path } capture)).1 =
          .ok (decoded, reading) ∧
        Arguments.count "--min-length" Strings.leastLength (arguments.value? "min-length") =
          .ok least ∧
        before.store.write ((arguments.value? "out").getD stringsFile)
          (rows (Strings.dump decoded least)) = .ok store := by
  unfold strings
  constructor
  · rintro ⟨console, h⟩
    obtain ⟨arguments, _, harguments, h⟩ := runOn_bind_eq_ok_iff.mp h
    obtain ⟨hread, rfl⟩ := runOn_orFail_eq_ok_iff.mp harguments
    obtain ⟨path, _, hoperand, h⟩ := runOn_bind_eq_ok_iff.mp h
    obtain ⟨hpath, rfl⟩ := runOn_operand_eq_ok_iff.mp hoperand
    obtain ⟨capture, _, hcapture, h⟩ := runOn_bind_eq_ok_iff.mp h
    obtain ⟨hfile, rfl⟩ := runOn_readFile_eq_ok_iff.mp hcapture
    obtain ⟨⟨decoded, reading⟩, told, hdecode, h⟩ := runOn_bind_eq_ok_iff.mp h
    rw [runOn_runRecovery] at hdecode
    obtain ⟨hdecoded, rfl⟩ := Prod.mk.inj hdecode
    rw [mapError_eq_ok_iff] at hdecoded
    obtain ⟨least, _, hcount, h⟩ := runOn_bind_eq_ok_iff.mp h
    obtain ⟨hleast, rfl⟩ := runOn_orFail_eq_ok_iff.mp hcount
    obtain ⟨_, written, hwrite, hprint⟩ := runOn_bind_eq_ok_iff.mp h
    obtain ⟨next, hnext, rfl⟩ := runOn_writeFile_eq_ok_iff.mp hwrite
    obtain rfl : next = store := congrArg World.store (Prod.mk.inj hprint).2
    exact ⟨arguments, path, capture, decoded, reading, least, hread, hpath, hfile, hdecoded, hleast,
      hnext⟩
  · rintro ⟨arguments, path, capture, decoded, reading, least, hread, hpath, hfile, hdecoded,
      hleast, hwrite⟩
    rw [runOn_bind_of_ok (runOn_orFail_eq_ok_iff.mpr ⟨hread, rfl⟩),
      runOn_bind_of_ok (runOn_operand_eq_ok_iff.mpr ⟨hpath, rfl⟩),
      runOn_bind_of_ok (runOn_readFile_eq_ok_iff.mpr ⟨hfile, rfl⟩),
      runOn_bind_of_ok (runOn_runRecovery_of_ok hdecoded before),
      runOn_bind_of_ok (runOn_orFail_eq_ok_iff.mpr ⟨hleast, rfl⟩)]
    exact ⟨_, runOn_bind_eq_ok_iff.mpr
      ⟨(), _, runOn_writeFile_eq_ok_iff.mpr ⟨store, hwrite, rfl⟩, rfl⟩⟩

/-- A file that can be read is grouped to a file. -/
theorem exists_runOn_group {words : List String} {arguments : Arguments} {data : Bytes}
    {store : Store} (harguments : Arguments.read groupForms words = .ok arguments)
    (hdata : before.store.read (arguments.operand?.getD stringsFile) = .ok data)
    (hwrite : before.store.write ((arguments.value? "out").getD "grouped_by_location.txt")
      (Text.encode (Strings.report (Strings.group Strings.placeOpenings
        ((filledRows (Text.decode data)).map Strings.clean)))) = .ok store) :
    ∃ console, runOn (group words) before = (.ok (), ⟨store, console⟩) := by
  unfold group
  rw [runOn_bind_of_ok (runOn_orFail_eq_ok_iff.mpr ⟨harguments, rfl⟩),
    runOn_bind_of_ok (runOn_readFile_eq_ok_iff.mpr ⟨hdata, rfl⟩)]
  exact ⟨_, runOn_bind_eq_ok_iff.mpr
    ⟨(), _, runOn_writeFile_eq_ok_iff.mpr ⟨store, hwrite, rfl⟩, rfl⟩⟩

end TapeSalvage.Command
