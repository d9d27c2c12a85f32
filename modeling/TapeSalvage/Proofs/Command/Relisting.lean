import TapeSalvage.Proofs.Command.Files
import TapeSalvage.Proofs.Command.Runs
import TapeSalvage.Proofs.Command.ToneTape
import TapeSalvage.Proofs.Command.Words
import TapeSalvage.Proofs.Recovery.Stages

/-!
The two ways to a listing. A recovery lists the program that it found, and writes it to a file; the
program file that is listed afterwards, with as many bytes skipped, gives the same listing, byte for
byte.
-/
namespace TapeSalvage.Command

variable {before after : World}

/-- A program that was recovered to a file is listed as it was in the listing that was written with
it: the two files agree in every byte. -/
theorem list_of_recover {tap prg bas skip out : String} {options : List (String × String)}
    (htap : Shape.of tap = .operand) (hprg : IsName prg) (hbas : IsName bas) (hout : IsName out)
    (hoptions : ∀ option ∈ options, option.1 ∈ ["mode", "copy", "header"])
    (hrun : runOn (execute ("recover" :: tap :: (optionWords options ++
      ["--prg", prg, "--bas", bas, "--start-skip", skip]))) before = (.ok 0, after))
    (hapart : before.store.place prg ≠ before.store.place bas)
    (hplace : ∃ name, after.store.place out = .file name) :
    ∃ (listing : Bytes) (final : World),
      after.store.read bas = .ok listing ∧
      runOn (execute ["list", prg, "--start-skip", skip, "-o", out]) after = (.ok 0, final) ∧
      after.store.write out listing = .ok final.store ∧
      final.store.read out = .ok listing ∧
      final.console = after.console := by
  have hrecover := (runOn_execute_eq_ok_zero_iff rfl).mp hrun
  obtain ⟨arguments, path, config, capture, result, first, second, hread, _, hconfig, _, hrecovered,
    hfirst, hsecond, hlast⟩ := (runOn_recover_iff before).mp ⟨after.console, hrecover⟩
  obtain ⟨hoption, hprgValue, hbasValue, hskipValue, hdecoded⟩ :=
    values_of_read_recoverForms htap hoptions hread
  obtain ⟨skipped, hskipped, hrules⟩ := exists_skip_of_recoverConfig hconfig
  obtain ⟨himage, hlines⟩ := Recovery.image_of_recovered hrecovered
  rw [hdecoded] at hfirst
  rw [hprgValue] at hsecond
  rw [hbasValue] at hlast
  rw [hskipValue] at hskipped
  obtain rfl := writesResult_empty_iff.mp hfirst
  have hprogram := (writesResult_iff hprg.ne_empty).mp hsecond
  have hlisting := (writesResult_iff hbas.ne_empty).mp hlast
  have hfolders := Store.folders_of_write hprogram
  obtain ⟨place, hprgPlace, _⟩ := Store.write_eq_ok_iff.mp hprogram
  have hsame := Store.place_ne_congr hfolders.symm hprgPlace hapart.symm
  have hfile : after.store.read prg = .ok result.image.bytes :=
    Store.read_of_write_apart hlisting hsame.symm (Store.read_of_write hprogram)
  obtain ⟨name, hname⟩ := hplace
  have hwrite : after.store.write out (Text.encode result.listing) =
      .ok (after.store.put name (Text.encode result.listing)) :=
    Store.write_eq_ok_iff.mpr ⟨name, hname, rfl⟩
  have htext : Listing.format (Listing.lines
      { Listing.Rules.standard with startSkip := skipped } result.image) = result.listing := by
    rw [Recovery.Result.listing, hlines, hrules]
  refine ⟨Text.encode result.listing, { after with store := _ }, Store.read_of_write hlisting, ?_,
    hwrite, Store.read_of_write hwrite, rfl⟩
  refine (runOn_execute_eq_ok_zero_iff rfl).mpr ?_
  exact runOn_list (read_listForms hprg hout hoption) rfl hfile himage hskipped rfl rfl
    hout.ne_empty (htext ▸ hwrite)

theorem list_of_recover_toneTape :
    ∃ (after final : World) (listing : Bytes),
      runOn (execute ["recover", "a.tap", "--mode", "scan", "--prg", "a.prg", "--bas", "a.txt",
        "--start-skip", "0"]) toneWorld = (.ok 0, after) ∧
      after.store.read "a.txt" = .ok listing ∧
      runOn (execute ["list", "a.prg", "--start-skip", "0", "-o", "b.txt"]) after = (.ok 0, final) ∧
      final.store.read "b.txt" = .ok listing := by
  obtain ⟨result, hresult⟩ := exists_recovered_toneTape
  have hread : Arguments.read recoverForms ["a.tap", "--mode", "scan", "--prg", "a.prg", "--bas",
      "a.txt", "--start-skip", "0"] = .ok ⟨[("start-skip", "0"), ("bas", "a.txt"),
        ("prg", "a.prg"), ("mode", "scan")], [], ["a.tap"]⟩ := rfl
  have hcapture : toneWorld.store.read "a.tap" = .ok toneTape := rfl
  have hprogram : toneWorld.store.write "a.prg" result.image.bytes =
      .ok ⟨[("a.tap", toneTape), ("a.prg", result.image.bytes)], []⟩ := rfl
  have hlisting : Store.write ⟨[("a.tap", toneTape), ("a.prg", result.image.bytes)], []⟩ "a.txt"
      (Text.encode result.listing) = .ok ⟨[("a.tap", toneTape), ("a.prg", result.image.bytes),
        ("a.txt", Text.encode result.listing)], []⟩ := rfl
  obtain ⟨console, hrecover⟩ := (runOn_recover_iff toneWorld).mpr ⟨_, "a.tap", scanConfig, toneTape,
    result, _, _, hread, rfl, rfl, hcapture, hresult, writesResult_empty_iff.mpr rfl,
    (writesResult_iff (by decide)).mpr hprogram, (writesResult_iff (by decide)).mpr hlisting⟩
  have hrun : runOn (execute ["recover", "a.tap", "--mode", "scan", "--prg", "a.prg", "--bas",
      "a.txt", "--start-skip", "0"]) toneWorld = _ :=
    (runOn_execute_eq_ok_zero_iff rfl).mpr hrecover
  have hapart : toneWorld.store.place "a.prg" ≠ toneWorld.store.place "a.txt" := by decide
  obtain ⟨listing, final, hbas, hlist, _, hout, _⟩ :=
    list_of_recover (show Shape.of "a.tap" = .operand from rfl) (show IsName "a.prg" by decide)
      (show IsName "a.txt" by decide) (show IsName "b.txt" by decide)
      (show ∀ option ∈ [("mode", "scan")], option.1 ∈ ["mode", "copy", "header"] by decide)
      hrun hapart ⟨"b.txt", rfl⟩
  exact ⟨_, final, listing, hrun, hbas, hlist, hout⟩

end TapeSalvage.Command
