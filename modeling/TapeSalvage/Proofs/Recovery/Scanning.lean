import TapeSalvage.Bytes
import TapeSalvage.Proofs.Bytes.Words
import TapeSalvage.Proofs.Recovery.Outcome
import TapeSalvage.Proofs.Scan.Chain
import TapeSalvage.Proofs.Scan.Shard

/-!
Recovery by scanning. The scan and the listing walk over the same records in their own ways: the
scan at offsets of the whole stream, with a reach for each line and a limit on records, the listing
at offsets of the image alone. They come to the same records, because the image ends behind the
record that closed the chain.
-/
namespace TapeSalvage.Recovery

open Listing (Record Stored storedBytes recordsFrom)
open Scan (Passes Trail Walks)

variable {α : Type}

theorem search_of_fromScan {config : Config α} {reading : Reading α} {data : Bytes}
    {result : Result α} (h : fromScan config data reading = .ok result) :
    ∃ best, Scan.search config.scanRules data = .ok best ∧
      result = scanResult config data reading best := by
  unfold fromScan at h
  cases hsearch : Scan.search config.scanRules data with
  | error fault =>
    rw [hsearch] at h
    contradiction
  | ok best =>
    rw [hsearch] at h
    exact ⟨best, rfl, (Except.ok.inj h).symm⟩

/-- The piece of a stream from the load address of a program to behind its closing record. -/
theorem slice_of_passes {rules : Scan.Rules} {data rest : Bytes} {offset : Nat} {low high : UInt8}
    {lines : List Stored} {final : Trail} (hdata : data.drop offset = low :: high :: rest)
    (h : Passes rules (word low high) (.start (word low high)) rest lines final) :
    offset + 2 + final.distance + 4 ≤ data.length ∧
      ∃ tail, (data.take (offset + 2 + final.distance + 4)).drop offset =
        low :: high :: (storedBytes lines ++ 0 :: 0 :: tail) := by
  obtain ⟨tail, rfl, htail⟩ := h.exists_close
  have hdistance : final.distance = (storedBytes lines).length := by
    rw [h.distance_final]
    exact Nat.zero_add _
  have hlength := congrArg List.length hdata
  simp only [List.length_drop, List.length_cons, List.length_append] at hlength
  refine ⟨by omega, tail.take 2, ?_⟩
  have hcount : offset + 2 + final.distance + 4 - offset = (storedBytes lines).length + 4 + 2 := by
    omega
  rw [List.drop_take, hdata, hcount, List.take_succ_cons, List.take_succ_cons,
    List.take_length_add_append]
  rfl

/-- What a search finds, said by the lines of the program. -/
theorem exists_lines_of_search {rules : Scan.Rules} {data : Bytes} {best : Scan.Candidate}
    (h : Scan.search rules data = .ok best) :
    ∃ (offset : Nat) (low high : UInt8) (rest : Bytes) (lines : List Stored) (final : Trail),
      best = final.candidate rules offset (word low high) ∧
      data.drop offset = low :: high :: rest ∧
      Passes rules (word low high) (.start (word low high)) rest lines final ∧
      lines.length < rules.recordLimit.toNat := by
  obtain ⟨offset, hjudge⟩ := Scan.exists_judge_of_search h
  obtain ⟨low, high, rest, final, hdata, _, _, _, hfollow, _, hbest⟩ :=
    Scan.eq_candidate_of_judge _ _ _ _ hjudge
  obtain ⟨lines, hpasses, hcount⟩ := (Scan.follow_eq_some_iff _ _ _ _).mp hfollow
  exact ⟨offset, low, high, rest, lines, final, hbest, hdata, hpasses, hcount⟩

theorem candidateImage_candidate (rules : Scan.Rules) {data body : Bytes} {offset : Nat}
    {low high : UInt8} {final : Trail}
    (hslice : (data.take (offset + 2 + final.distance + 4)).drop offset = low :: high :: body) :
    candidateImage data (final.candidate rules offset (word low high)) = ⟨word low high, body⟩ := by
  have hlast : (final.candidate rules offset (word low high)).endOffset.toNat =
      offset + 2 + final.distance + 4 := by
    change ((offset : Int) + 2 + final.distance + 4).toNat = _
    omega
  unfold candidateImage
  rw [hlast]
  change Program.Image.mk _ (((data.take _).drop offset).drop 2) = _
  rw [hslice]
  rfl

/-- A program that was found by scanning is listed as the records that the scan passed, and its
image is the piece of the stream that the scan walked over. -/
theorem recoverByScan_lines (config : Config α) (reading : Reading α) (data : Bytes)
    (hlimit : config.scanRules.recordLimit ≤ 20000)
    (htraversal : config.listingRules.traversal = .terminator)
    (hskip : config.listingRules.startSkip = 0) {result : Result α}
    (hrun : (run (recoverByScan config data reading)).1 = .ok result) :
    ∃ (findings : ScanFindings) (first last : Nat) (walked : List Record),
      result.findings = .scan findings ∧
      findings.offset = first ∧ findings.endOffset = last ∧ last ≤ data.length ∧
      Walks config.scanRules data first walked ∧
      result.lines.length = findings.lineCount ∧
      result.lines.map (·.number) = walked.map (fun record => (record.lineNumber : Int)) ∧
      result.lines = walked.map (·.line config.listingRules.style) ∧
      (∀ record ∈ walked, (record.lineNumber : Int) ≤ config.scanRules.highestLine) ∧
      result.image.bytes = (data.take last).drop first ∧
      result.image.bytes.length = findings.imageLength ∧
      Bytes.wordAt result.image.bytes 0 = .ok result.image.loadAddress := by
  rw [(yields_recoverByScan config data reading).run_eq] at hrun
  obtain ⟨best, hsearch, rfl⟩ := search_of_fromScan hrun
  obtain ⟨offset, low, high, rest, lines, final, rfl, hdata, hpasses, hcount⟩ :=
    exists_lines_of_search hsearch
  obtain ⟨hlast, tail, hslice⟩ := slice_of_passes hdata hpasses
  have himage := candidateImage_candidate config.scanRules hslice
  have hbytes : (Program.Image.mk (word low high) (storedBytes lines ++ 0 :: 0 :: tail)).bytes =
      low :: high :: (storedBytes lines ++ 0 :: 0 :: tail) := by
    rw [Program.Image.bytes, Bytes.ofWord_word]
    rfl
  have hfew : lines.length ≤ Listing.lineLimit := by
    unfold Listing.lineLimit
    omega
  have hlines : Listing.lines config.listingRules
      (candidateImage data (final.candidate config.scanRules offset (word low high))) =
        (recordsFrom 0 lines).map (·.line config.listingRules.style) := by
    rw [himage, Listing.lines, Listing.records_storedBytes htraversal hskip _ _ hfew]
  refine ⟨_, offset, offset + 2 + final.distance + 4, recordsFrom 0 lines, rfl, rfl, ?_, hlast,
    ⟨low, high, rest, lines, final, hdata, hpasses, rfl⟩, ?_, ?_, hlines, hpasses.number_le, ?_,
    rfl, ?_⟩
  · change (offset : Int) + 2 + final.distance + 4 = _
    omega
  · have hfinal : final.lines = lines.length := by
      rw [hpasses.lines_final]
      exact Nat.zero_add _
    change ((Listing.lines config.listingRules _).length : Int) = (final.lines : Int)
    rw [hlines, List.length_map, Listing.length_recordsFrom, hfinal]
  · change (Listing.lines config.listingRules _).map _ = _
    rw [hlines, List.map_map]
    rfl
  · change (candidateImage data _).bytes = _
    rw [himage, hbytes, hslice]
  · change Bytes.wordAt (candidateImage data _).bytes 0 = .ok (candidateImage data _).loadAddress
    rw [himage, hbytes]
    rfl

/-- A program of three lines between other bytes: the pointer of its second line leads nowhere, and
the third line has a lower number. -/
def damagedStream : Bytes :=
  [0x33, 0xFF, 0x01, 0x10, 0x07, 0x10, 10, 0, 0x80, 0, 0xFF, 0xFF, 30, 0, 0x99, 0x22, 0xC1, 0,
   0x14, 0x10, 20, 0, 0x80, 0, 0, 0, 0xFF, 0xFF, 0x55, 0x55]

def layoutConfig : Config Rat := { Config.standard with listing := { style := some .layout } }

theorem recoverByScan_lines_damagedStream :
    ∃ (result : Result Rat) (findings : ScanFindings) (walked : List Record),
      (run (recoverByScan layoutConfig damagedStream ⟨[], 0, 30⟩)).1 = .ok result ∧
      layoutConfig.scanRules.recordLimit ≤ 20000 ∧
      layoutConfig.listingRules.traversal = .terminator ∧
      layoutConfig.listingRules.startSkip = 0 ∧
      result.findings = .scan findings ∧
      Walks layoutConfig.scanRules damagedStream 2 walked ∧
      findings.lineCount = 3 ∧
      walked.map (fun record => (record.lineNumber : Int)) = [10, 30, 20] ∧
      result.lines = [⟨10, "END"⟩, ⟨30, "PRINT\"A"⟩, ⟨20, "END"⟩] ∧
      result.image.bytes = (damagedStream.take 28).drop 2 := by
  have hsearch : Scan.search? layoutConfig.scanRules damagedStream =
      some ⟨2, .finite 140, 0x1001, 28, 3, .finite 50⟩ := by decide +kernel
  have hrun : (run (recoverByScan layoutConfig damagedStream ⟨[], 0, 30⟩)).1 =
      .ok (scanResult layoutConfig damagedStream ⟨[], 0, 30⟩
        ⟨2, .finite 140, 0x1001, 28, 3, .finite 50⟩) := by
    rw [(yields_recoverByScan _ _ _).run_eq, fromScan, Scan.search, hsearch]
    rfl
  obtain ⟨findings, first, last, walked, hfindings, hfirst, hlast, _, hwalks, hcount, hnumbers, _,
    _, hbytes, _⟩ :=
      recoverByScan_lines layoutConfig ⟨[], 0, 30⟩ damagedStream (by decide) rfl rfl hrun
  obtain rfl := Findings.scan.inj hfindings
  obtain rfl : 2 = first := Int.ofNat.inj hfirst
  obtain rfl : 28 = last := Int.ofNat.inj hlast
  have hlines : Listing.lines layoutConfig.listingRules
      (candidateImage damagedStream ⟨2, .finite 140, 0x1001, 28, 3, .finite 50⟩) =
        [⟨10, "END"⟩, ⟨30, "PRINT\"A"⟩, ⟨20, "END"⟩] := by decide +kernel
  refine ⟨_, _, walked, hrun, by decide, rfl, rfl, rfl, hwalks, rfl, ?_, hlines, hbytes⟩
  rw [← hnumbers]
  exact congrArg (List.map (·.number)) hlines

end TapeSalvage.Recovery
