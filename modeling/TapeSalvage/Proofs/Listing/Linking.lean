import TapeSalvage.Proofs.Listing.Grammar

/-!
Programs whose pointers are right. Where every listed record points to the byte behind its zero
byte, the walk along the pointers takes the same steps as the walk along the zero bytes. It finds no
reason of its own to stop: such a pointer leads forward, and at most to the end of the body.
-/
namespace TapeSalvage.Listing

def Record.stop (record : Record) : Nat := record.offset + 5 + record.text.length

/-- Whether the pointer of a record leads behind its zero byte. -/
def PointsOn (load : Nat) (record : Record) : Prop := (record.pointer : Int) - load = record.stop

theorem pointerStep?_of_pointsOn {load offset : Nat} {line : Stored}
    (h : PointsOn load (line.record offset)) (rest : Bytes) :
    pointerStep? load (line.record offset) (line.bytes ++ rest) = some line.bytes.length := by
  have hbytes := line.length_bytes
  have hoffset : (line.record offset).offset = offset := rfl
  have htarget : ((line.record offset).pointer : Int) - load = offset + line.bytes.length := by
    rw [h, hbytes]
    change ((offset + 5 + line.text.length : Nat) : Int) = _
    omega
  have hforward : ¬ (offset : Int) + line.bytes.length ≤ offset := by omega
  have hstep : ((offset : Int) + line.bytes.length - offset).toNat = line.bytes.length := by omega
  have hinside : holds line.bytes.length (line.bytes ++ rest) = true := by
    rw [holds_iff, List.length_append]
    exact Nat.le_add_right _ _
  unfold pointerStep?
  dsimp only
  rw [htarget, hoffset, if_neg hforward, hstep, if_pos hinside]

/-- The walk along right pointers takes stored lines up to its limit, and stops behind them if no
record follows. -/
theorem walkFrom_pointer_storedBytes (load limit offset : Nat) (found : List Record)
    (lines : List Stored) {tail : Bytes} (htail : ∀ position, recordAt? position tail = none)
    (h : ∀ record ∈ recordsFrom offset (lines.take limit), PointsOn load record) :
    walkFrom .pointer load limit offset found (storedBytes lines ++ tail) =
      found.reverse ++ recordsFrom offset (lines.take limit) := by
  induction lines generalizing limit offset found with
  | nil =>
    rw [List.take_nil, recordsFrom, List.append_nil]
    cases limit with
    | zero => rfl
    | succ limit =>
      change walkFrom .pointer load (limit + 1) offset found tail = _
      rw [walkFrom, htail]
  | cons line rest ih =>
    cases limit with
    | zero =>
      rw [List.take_zero, recordsFrom, List.append_nil]
      rfl
    | succ limit =>
      rw [List.take_succ_cons, recordsFrom, List.forall_mem_cons] at h
      have hnext : offset + line.bytes.length = offset + 5 + line.text.length := by
        rw [line.length_bytes]
        omega
      rw [storedBytes_cons, List.append_assoc, walkFrom, recordAt?_append]
      dsimp only
      rw [pointerStep?_of_pointsOn h.1]
      dsimp only
      rw [List.drop_left, hnext, ih _ _ _ h.2, List.take_succ_cons, recordsFrom, List.reverse_cons,
        List.append_assoc]
      rfl

/-- A program lists the same along its pointers as along its zero bytes if the pointer of every
record that is listed along the zero bytes leads behind its own. -/
theorem lines_pointer_eq_lines_terminator (style : Style) (skip : Int) (image : Program.Image)
    (h : ∀ record ∈ records ⟨.terminator, style, skip⟩ image,
      (record.pointer : Int) - image.loadAddress = record.stop) :
    lines ⟨.pointer, style, skip⟩ image = lines ⟨.terminator, style, skip⟩ image := by
  obtain ⟨stored, rest, hparses⟩ := exists_parses (image.body.drop skip.toNat)
  have hright : ∀ record ∈ recordsFrom skip.toNat (stored.take lineLimit),
      PointsOn image.loadAddress record := by
    intro record hrecord
    rw [← hparses.records_eq style] at hrecord
    exact h record hrecord
  have hwalk : records ⟨.pointer, style, skip⟩ image =
      recordsFrom skip.toNat (stored.take lineLimit) := by
    unfold records
    dsimp only
    rw [hparses.eq_append]
    exact walkFrom_pointer_storedBytes _ _ _ _ _ hparses.recordAt?_eq_none hright
  rw [lines, lines, hwalk, hparses.records_eq style]

/-- Two lines behind a byte that is skipped. The last pointer leads to the end of the body, where no
closing record stands. -/
def unclosedImage : Program.Image :=
  ⟨0x1000, [0xEE, 0x07, 0x10, 10, 0, 0x80, 0, 0x0D, 0x10, 20, 0, 0x99, 0]⟩

theorem lines_pointer_eq_lines_terminator_unclosedImage :
    (∀ record ∈ records ⟨.terminator, .strict, 1⟩ unclosedImage,
      (record.pointer : Int) - unclosedImage.loadAddress = record.stop) ∧
    lines ⟨.terminator, .strict, 1⟩ unclosedImage = [⟨10, "END"⟩, ⟨20, "PRINT"⟩] ∧
    lines ⟨.pointer, .strict, 1⟩ unclosedImage = [⟨10, "END"⟩, ⟨20, "PRINT"⟩] := by
  have hright : ∀ record ∈ records ⟨.terminator, .strict, 1⟩ unclosedImage,
      (record.pointer : Int) - unclosedImage.loadAddress = record.stop := by decide +kernel
  have hlines : lines ⟨.terminator, .strict, 1⟩ unclosedImage = [⟨10, "END"⟩, ⟨20, "PRINT"⟩] := by
    decide +kernel
  refine ⟨hright, hlines, ?_⟩
  rw [lines_pointer_eq_lines_terminator .strict 1 unclosedImage hright, hlines]

end TapeSalvage.Listing
