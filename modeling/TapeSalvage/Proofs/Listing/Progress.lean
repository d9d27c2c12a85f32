import TapeSalvage.Proofs.Listing.Checked
import TapeSalvage.Proofs.Listing.Linking

/-!
The walk from record to record without its limit. It ends for every body, whatever its pointers say:
each record stands further on than the one before, and all of it inside the body. How many records
there can be follows from the length of the body alone.
-/
namespace TapeSalvage.Listing

def next? (traversal : Traversal) (load : Nat) (body : Bytes) (record : Record) : Option Nat :=
  match traversal with
  | .terminator => some record.stop
  | .pointer => (pointerStep? load record (body.drop record.offset)).map (record.offset + ·)

/-- The walk from an offset of a body until it ends, and the records that it lists. -/
inductive Walks (traversal : Traversal) (load : Nat) (body : Bytes) : Nat → List Record → Prop
  | nil {offset : Nat} (h : recordAt? offset (body.drop offset) = none) :
      Walks traversal load body offset []
  | last {offset : Nat} {record : Record} {after : Bytes}
      (h : recordAt? offset (body.drop offset) = some (record, after))
      (hnext : next? traversal load body record = none) :
      Walks traversal load body offset [record]
  | cons {offset next : Nat} {record : Record} {after : Bytes} {rest : List Record}
      (h : recordAt? offset (body.drop offset) = some (record, after))
      (hnext : next? traversal load body record = some next)
      (hrest : Walks traversal load body next rest) :
      Walks traversal load body offset (record :: rest)

theorem Record.offset_add_le_stop (record : Record) : record.offset + 5 ≤ record.stop :=
  Nat.le_add_right _ _

def Record.StandsIn (body : Bytes) (record : Record) : Prop :=
  ∃ line : Stored, line.record record.offset = record ∧ line.bytes <+: body.drop record.offset

theorem Record.StandsIn.stop_le {body : Bytes} {record : Record} (h : record.StandsIn body) :
    record.stop ≤ body.length := by
  obtain ⟨line, hrecord, hprefix⟩ := h
  have hlength := hprefix.length_le
  have hbytes := line.length_bytes
  have htext : record.text = line.text := by rw [← hrecord]; rfl
  rw [List.length_drop] at hlength
  rw [Record.stop, htext]
  omega

/-- The zero byte of a record is the last one in front of its stop. -/
theorem Record.StandsIn.getElem?_eq {body : Bytes} {record : Record} (h : record.StandsIn body) :
    body[record.offset + 4 + record.text.length]? = some 0 := by
  obtain ⟨line, hrecord, rest, hrest⟩ := h
  have htext : record.text = line.text := by rw [← hrecord]; rfl
  have hzero : line.bytes[4 + line.text.length]? = some 0 := by
    have hplace : 4 + line.text.length = line.text.length + 4 := Nat.add_comm _ _
    rw [hplace]
    simp [Stored.bytes]
  have hinside : 4 + line.text.length < line.bytes.length := by
    rw [line.length_bytes]
    omega
  rw [htext, Nat.add_assoc, ← List.getElem?_drop, ← hrest, List.getElem?_append_left hinside, hzero]

/-- The greatest number of records that so many bytes can list. Along the zero bytes, no two of them
share a byte; along the pointers, every byte but the last four may begin one. -/
def capacity (traversal : Traversal) (size : Nat) : Nat :=
  match traversal with
  | .terminator => size / 5
  | .pointer => size - 4

section Steps

variable {traversal : Traversal} {load offset next : Nat} {body after : Bytes} {record : Record}

theorem standsIn_of_recordAt? (h : recordAt? offset (body.drop offset) = some (record, after)) :
    record.offset = offset ∧ record.StandsIn body := by
  obtain ⟨line, hdrop, rfl⟩ := exists_stored_of_recordAt? h
  refine ⟨rfl, line, rfl, ?_⟩
  change line.bytes <+: body.drop offset
  rw [hdrop]
  exact List.prefix_append _ _

theorem drop_stop_of_recordAt? (h : recordAt? offset (body.drop offset) = some (record, after)) :
    body.drop record.stop = after := by
  obtain ⟨line, hdrop, rfl⟩ := exists_stored_of_recordAt? h
  exact drop_of_line hdrop

/-- The walk goes on further on inside the body, and along the zero bytes behind the whole
record. -/
theorem lt_of_next? (hrecord : record.StandsIn body)
    (hnext : next? traversal load body record = some next) :
    record.offset < next ∧ next ≤ body.length ∧ (traversal = .terminator → next = record.stop) := by
  have hbegin := record.offset_add_le_stop
  have hstop := hrecord.stop_le
  cases traversal with
  | terminator =>
    obtain rfl : record.stop = next := Option.some.inj hnext
    exact ⟨by omega, hstop, fun _ => rfl⟩
  | pointer =>
    obtain ⟨step, hstep, rfl⟩ := Option.map_eq_some_iff.mp hnext
    rw [pointerStep?_eq load record (by omega)] at hstep
    by_cases hout : (record.pointer : Int) - load ≤ record.offset ∨
        (body.length : Int) < record.pointer - load
    · rw [if_pos hout] at hstep
      contradiction
    · rw [if_neg hout] at hstep
      have hforward := Option.some.inj hstep
      exact ⟨by omega, by omega, fun h => by contradiction⟩

/-- A step of the walk with a limit. -/
theorem walkFrom_of_recordAt? (h : recordAt? offset (body.drop offset) = some (record, after))
    (limit : Nat) (found : List Record) :
    walkFrom traversal load (limit + 1) offset found (body.drop offset) =
      match next? traversal load body record with
      | none => (record :: found).reverse
      | some next => walkFrom traversal load limit next (record :: found) (body.drop next) := by
  have hoffset : record.offset = offset := (standsIn_of_recordAt? h).1
  rw [walkFrom, h]
  cases traversal with
  | terminator =>
    dsimp only [next?]
    rw [drop_stop_of_recordAt? h, Record.stop, hoffset]
  | pointer =>
    dsimp only [next?]
    rw [hoffset]
    cases pointerStep? load record (body.drop offset) with
    | none => rfl
    | some step =>
      dsimp only [Option.map_some]
      rw [List.drop_drop]

theorem capacity_pos (hrecord : record.StandsIn body) :
    0 < capacity traversal (body.length - record.offset) := by
  have hbegin := record.offset_add_le_stop
  have hstop := hrecord.stop_le
  cases traversal with
  | terminator => exact Nat.div_pos (by omega) (by decide)
  | pointer => exact Nat.sub_pos_of_lt (by omega)

/-- Where the walk goes on, there is room for one record less. -/
theorem capacity_lt (hrecord : record.StandsIn body)
    (hnext : next? traversal load body record = some next) :
    capacity traversal (body.length - next) < capacity traversal (body.length - record.offset) := by
  obtain ⟨hforward, _, hbehind⟩ := lt_of_next? hrecord hnext
  have hbegin := record.offset_add_le_stop
  have hstop := hrecord.stop_le
  cases traversal with
  | terminator =>
    have hnext := hbehind rfl
    dsimp only [capacity]
    omega
  | pointer =>
    dsimp only [capacity]
    omega

end Steps

section Walk

variable {traversal : Traversal} {load offset : Nat} {body : Bytes} {listed : List Record}

theorem exists_walks (traversal : Traversal) (load : Nat) (body : Bytes) (offset : Nat) :
    ∃ listed, Walks traversal load body offset listed := by
  induction hsize : body.length - offset using Nat.strongRecOn generalizing offset with
  | ind size ih =>
    cases hrecord : recordAt? offset (body.drop offset) with
    | none => exact ⟨[], .nil hrecord⟩
    | some taken =>
      obtain ⟨record, after⟩ := taken
      obtain ⟨hoffset, hstands⟩ := standsIn_of_recordAt? hrecord
      cases hnext : next? traversal load body record with
      | none => exact ⟨[record], .last hrecord hnext⟩
      | some next =>
        obtain ⟨hforward, hinside, _⟩ := lt_of_next? hstands hnext
        obtain ⟨rest, hrest⟩ := ih (body.length - next) (by omega) next rfl
        exact ⟨record :: rest, .cons hrecord hnext hrest⟩

namespace Walks

/-- The walk with a limit is the walk without one, as far as the limit allows. -/
theorem walkFrom_eq (h : Walks traversal load body offset listed) (limit : Nat)
    (found : List Record) :
    walkFrom traversal load limit offset found (body.drop offset) =
      found.reverse ++ listed.take limit := by
  induction h generalizing limit found with
  | nil hrecord =>
    cases limit with
    | zero => simp [walkFrom]
    | succ limit => simp [walkFrom, hrecord]
  | last hrecord hnext =>
    cases limit with
    | zero => simp [walkFrom]
    | succ limit => simp [walkFrom_of_recordAt? hrecord, hnext]
  | cons hrecord hnext _ ih =>
    cases limit with
    | zero => simp [walkFrom]
    | succ limit => simp [walkFrom_of_recordAt? hrecord, hnext, ih]

/-- The walk lists the same records whenever it is taken. -/
theorem unique (h : Walks traversal load body offset listed) {others : List Record}
    (hothers : Walks traversal load body offset others) : others = listed := by
  have hwalk := h.walkFrom_eq (max listed.length others.length) []
  have hagain := hothers.walkFrom_eq (max listed.length others.length) []
  rw [List.take_of_length_le (Nat.le_max_left _ _)] at hwalk
  rw [List.take_of_length_le (Nat.le_max_right _ _)] at hagain
  exact List.append_cancel_left (hagain.symm.trans hwalk)

theorem le_offset (h : Walks traversal load body offset listed) :
    ∀ record ∈ listed, offset ≤ record.offset := by
  induction h with
  | nil _ => simp
  | last hrecord _ => simp [(standsIn_of_recordAt? hrecord).1]
  | cons hrecord hnext _ ih =>
    obtain ⟨hoffset, hstands⟩ := standsIn_of_recordAt? hrecord
    obtain ⟨hforward, _⟩ := lt_of_next? hstands hnext
    rw [List.forall_mem_cons]
    refine ⟨Nat.le_of_eq hoffset.symm, ?_⟩
    intro record hmem
    have hbehind := ih record hmem
    omega

theorem standsIn (h : Walks traversal load body offset listed) :
    ∀ record ∈ listed, record.StandsIn body := by
  induction h with
  | nil _ => simp
  | last hrecord _ => simp [(standsIn_of_recordAt? hrecord).2]
  | cons hrecord _ _ ih =>
    exact List.forall_mem_cons.mpr ⟨(standsIn_of_recordAt? hrecord).2, ih⟩

theorem pairwise (h : Walks traversal load body offset listed) :
    listed.Pairwise (·.offset < ·.offset) := by
  induction h with
  | nil _ => exact List.Pairwise.nil
  | last _ _ => exact List.pairwise_singleton _ _
  | cons hrecord hnext hrest ih =>
    obtain ⟨hforward, _⟩ := lt_of_next? (standsIn_of_recordAt? hrecord).2 hnext
    refine List.pairwise_cons.mpr ⟨?_, ih⟩
    intro record hmem
    exact Nat.lt_of_lt_of_le hforward (hrest.le_offset record hmem)

theorem length_le (h : Walks traversal load body offset listed) :
    listed.length ≤ capacity traversal (body.length - offset) := by
  induction h with
  | nil _ => exact Nat.zero_le _
  | last hrecord _ =>
    obtain ⟨rfl, hstands⟩ := standsIn_of_recordAt? hrecord
    exact capacity_pos hstands
  | cons hrecord hnext _ ih =>
    obtain ⟨rfl, hstands⟩ := standsIn_of_recordAt? hrecord
    exact Nat.lt_of_le_of_lt ih (capacity_lt hstands hnext)

end Walks

end Walk

/-- Without its limit the walk through a program ends, whatever the pointers of the program say, and
lists the same records whenever it is taken; with a limit, as in a listing, it lists the first of
these. Each of them stands further on than the one before, so that none is listed twice, and all of
it stands inside the body and behind the bytes that are skipped. There are no more of them than fit
in there. -/
theorem exists_walks_records (rules : Rules) (image : Program.Image) :
    ∃ listed,
      Walks rules.traversal image.loadAddress image.body rules.startSkip.toNat listed ∧
      (∀ others, Walks rules.traversal image.loadAddress image.body rules.startSkip.toNat others →
        others = listed) ∧
      (∀ limit, walkFrom rules.traversal image.loadAddress limit rules.startSkip.toNat []
        (image.body.drop rules.startSkip.toNat) = listed.take limit) ∧
      lines rules image = (listed.take 20000).map (·.line rules.style) ∧
      listed.Pairwise (·.offset < ·.offset) ∧ (listed.map (·.offset)).Nodup ∧
      (∀ record ∈ listed, rules.startSkip.toNat ≤ record.offset ∧ record.StandsIn image.body ∧
        record.stop ≤ image.body.length ∧
        image.body[record.offset + 4 + record.text.length]? = some 0) ∧
      listed.length ≤ match rules.traversal with
        | .terminator => (image.body.length - rules.startSkip.toNat) / 5
        | .pointer => image.body.length - rules.startSkip.toNat - 4 := by
  obtain ⟨listed, h⟩ := exists_walks rules.traversal image.loadAddress image.body
    rules.startSkip.toNat
  have hlimit : ∀ limit, walkFrom rules.traversal image.loadAddress limit rules.startSkip.toNat []
      (image.body.drop rules.startSkip.toNat) = listed.take limit :=
    fun limit => h.walkFrom_eq limit []
  have hrecords : records rules image = listed.take 20000 := hlimit lineLimit
  refine ⟨listed, h, fun others hothers => h.unique hothers, hlimit, ?_, h.pairwise, ?_, ?_,
    h.length_le⟩
  · rw [lines, hrecords]
  · rw [List.Nodup, List.pairwise_map]
    exact h.pairwise.imp Nat.ne_of_lt
  · intro record hrecord
    have hstands := h.standsIn record hrecord
    exact ⟨h.le_offset record hrecord, hstands, hstands.stop_le, hstands.getElem?_eq⟩

/-- A pointer that leads back to the first record ends the walk. -/
example : lines ⟨.pointer, .strict, 0⟩
    ⟨0x1001, [0x07, 0x10, 10, 0, 0x80, 0, 0x01, 0x10, 20, 0, 0x99, 0, 0, 0]⟩ =
      [⟨10, "END"⟩, ⟨20, "PRINT"⟩] := by decide +kernel

end TapeSalvage.Listing
