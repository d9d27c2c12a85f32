import Mathlib.Data.List.Infix
import TapeSalvage.Proofs.Bytes.Pieces
import TapeSalvage.Proofs.Capture.Records

/-!
The grammar of captures. A stream is a list of records and a rest that is cut off before its record
is whole; there is only one way to see it so, and what is read are the durations of these records.
So of a stream that ends early the first durations are read, and no others.
-/
namespace TapeSalvage

theorem Bytes.number_lt (data : Bytes) : number data < Nat.pow 256 data.length := by
  induction data with
  | nil => exact Nat.one_pos
  | cons byte rest ih =>
    have hbyte := byte.toNat_lt
    have hsplit : Nat.pow 256 (rest.length + 1) = 256 * Nat.pow 256 rest.length := Nat.pow_succ'
    rw [number, List.length_cons, hsplit]
    omega

namespace Capture

/-- A record as it stands in a stream: a byte, or a zero byte and three more. -/
inductive Record where
  | short (byte : UInt8) (ne_zero : byte ≠ 0)
  | long (low middle high : UInt8)

namespace Record

def bytes : Record → Bytes
  | short byte _ => [byte]
  | long low middle high => [0, low, middle, high]

def duration : Record → Nat
  | short byte _ => byte.toNat
  | long low middle high => low.toNat + 256 * middle.toNat + 65536 * high.toNat

theorem length_bytes_pos (record : Record) : 0 < record.bytes.length := by
  cases record <;> simp [bytes]

/-- Where a record ends is told by the record. -/
theorem append_inj {record other : Record} {rest others : Bytes}
    (h : record.bytes ++ rest = other.bytes ++ others) : record = other ∧ rest = others := by
  cases record with
  | short byte hbyte =>
    cases other with
    | short next _ =>
      obtain ⟨rfl, hrest⟩ := List.cons.inj h
      exact ⟨rfl, hrest⟩
    | long low middle high => exact absurd (List.cons.inj h).1 hbyte
  | long low middle high =>
    cases other with
    | short next hnext => exact absurd (List.cons.inj h).1.symm hnext
    | long first second third =>
      simp only [bytes, List.cons_append, List.nil_append, List.cons.injEq] at h
      obtain ⟨_, rfl, rfl, rfl, hrest⟩ := h
      exact ⟨rfl, hrest⟩

theorem readFrom_append (record : Record) (done : List Nat) (rest : Bytes) :
    readFrom done (record.bytes ++ rest) = readFrom (record.duration :: done) rest := by
  cases record with
  | short byte hbyte => exact readFrom_of_ne_zero hbyte done rest
  | long low middle high =>
    have hnumber : Bytes.number [low, middle, high] =
        low.toNat + 256 * middle.toNat + 65536 * high.toNat := by
      simp only [Bytes.number]
      omega
    change readFrom done (0 :: low :: middle :: high :: rest) = _
    rw [readFrom, if_pos rfl, hnumber]
    rfl

end Record

/-- Whether a rest is less than a record: nothing, or a zero byte and at most two more. -/
def IsCut (rest : Bytes) : Prop := rest = [] ∨ ∃ others, rest = 0 :: others ∧ others.length ≤ 2

theorem readFrom_of_isCut (done : List Nat) {rest : Bytes} (h : IsCut rest) :
    readFrom done rest = done.reverse := by
  rcases h with rfl | ⟨others, rfl, hlength⟩
  · rfl
  match others, hlength with
  | [], _ => rfl
  | [_], _ => rfl
  | [_, _], _ => rfl

theorem not_isCut_append (record : Record) (rest : Bytes) : ¬ IsCut (record.bytes ++ rest) := by
  rintro (hnil | ⟨others, hothers, hlength⟩)
  · cases record <;> contradiction
  · cases record with
    | short byte hbyte => exact hbyte (List.cons.inj hothers).1
    | long low middle high =>
      obtain rfl := (List.cons.inj hothers).2
      simp at hlength

theorem isCut_or_exists_record (stream : Bytes) :
    IsCut stream ∨ ∃ (record : Record) (rest : Bytes), stream = record.bytes ++ rest := by
  cases stream with
  | nil => exact Or.inl (Or.inl rfl)
  | cons byte rest =>
    by_cases hbyte : byte = 0
    · subst hbyte
      match rest with
      | low :: middle :: high :: rest => exact Or.inr ⟨.long low middle high, rest, rfl⟩
      | [low, middle] => exact Or.inl (Or.inr ⟨[low, middle], rfl, by simp⟩)
      | [low] => exact Or.inl (Or.inr ⟨[low], rfl, by simp⟩)
      | [] => exact Or.inl (Or.inr ⟨[], rfl, by simp⟩)
    · exact Or.inr ⟨.short byte hbyte, rest, rfl⟩

structure Spells (stream : Bytes) (records : List Record) (rest : Bytes) : Prop where
  eq_append : stream = records.flatMap Record.bytes ++ rest
  isCut : IsCut rest

/-- Every stream is spelled by some records. -/
theorem exists_spells (stream : Bytes) : ∃ records rest, Spells stream records rest := by
  obtain ⟨records, rest, heq, hcut⟩ :=
    Bytes.exists_pieces Record.length_bytes_pos isCut_or_exists_record stream
  exact ⟨records, rest, heq, hcut⟩

/-- A stream is spelled in one way only. -/
theorem Spells.unique {stream rest last : Bytes} {records others : List Record}
    (h : Spells stream records rest) (hother : Spells stream others last) :
    others = records ∧ last = rest :=
  Bytes.pieces_unique Record.append_inj not_isCut_append (h.eq_append.symm.trans hother.eq_append)
    h.isCut hother.isCut

theorem readFrom_flatMap (records : List Record) (done : List Nat) (rest : Bytes) :
    readFrom done (records.flatMap Record.bytes ++ rest) =
      readFrom ((records.map Record.duration).reverse ++ done) rest := by
  induction records generalizing done with
  | nil => rfl
  | cons record records ih =>
    rw [List.flatMap_cons, List.append_assoc, record.readFrom_append, ih]
    simp

/-- What is read are the durations of the records. -/
theorem Spells.readFrom_eq {stream rest : Bytes} {records : List Record}
    (h : Spells stream records rest) (done : List Nat) :
    readFrom done stream = done.reverse ++ records.map Record.duration := by
  rw [h.eq_append, readFrom_flatMap, readFrom_of_isCut _ h.isCut]
  simp

/-- Of the front of a stream the first durations are read. -/
theorem prefix_durations {front stream : Bytes} (h : front <+: stream) :
    durations front <+: durations stream := by
  obtain ⟨back, rfl⟩ := h
  obtain ⟨records, rest, hfront⟩ := exists_spells front
  obtain ⟨later, last, hback⟩ := exists_spells (rest ++ back)
  have hread : durations front = records.map Record.duration := hfront.readFrom_eq []
  have hwhole : durations (front ++ back) =
      records.map Record.duration ++ later.map Record.duration := by
    rw [durations, hfront.eq_append, List.append_assoc, readFrom_flatMap, hback.readFrom_eq]
    simp
  rw [hread, hwhole]
  exact List.prefix_append _ _

def declaredLength (data : Bytes) : Nat := Bytes.number ((data.drop 16).take 4)

/-- The stream of a capture: what stands behind the header, up to the declared length. -/
def stream (data : Bytes) : Bytes := (data.take (headerSize + declaredLength data)).drop headerSize

theorem stream_eq (data : Bytes) :
    stream data = (data.drop headerSize).take (declaredLength data) := by
  rw [stream, List.drop_take, Nat.add_sub_cancel_left]

/-- Whether the header of a capture can be read. -/
structure IsReadable (data : Bytes) : Prop where
  whole : headerSize ≤ data.length
  signed : data.take 12 = signature
  version : data[12]? = some 1

theorem isReadable_iff (data : Bytes) :
    IsReadable data ↔
      ¬ (data.length < headerSize ∨ data.take 12 ≠ signature ∨ data[12]? ≠ some 1) := by
  constructor
  · rintro ⟨hwhole, hsigned, hversion⟩ (hshort | hother | hother)
    · omega
    · exact hother hsigned
    · exact hother hversion
  · intro h
    simp only [not_or, Nat.not_lt, Decidable.not_not] at h
    exact ⟨h.1, h.2.1, h.2.2⟩

theorem isPrefixOf_signature_iff (data : Bytes) :
    signature.isPrefixOf data = true ↔ data.take 12 = signature := by
  rw [List.isPrefixOf_iff_prefix, List.prefix_iff_eq_take]
  exact eq_comm

theorem parse_of_isReadable {data : Bytes} (h : IsReadable data) :
    Header.parse data = .ok ⟨1, declaredLength data⟩ := by
  have hsigned : signature.isPrefixOf data = true := (isPrefixOf_signature_iff data).mpr h.signed
  have hversion : data.getD 12 0 = 1 := by
    rw [List.getD_eq_getElem?_getD, h.version]
    rfl
  unfold Header.parse
  rw [if_neg (Nat.not_lt.mpr h.whole), hsigned, hversion]
  rfl

theorem exists_fault_of_not_isReadable {data : Bytes} (h : ¬ IsReadable data) :
    ∃ fault, Header.parse data = .error fault ∧ fault.kind = .format := by
  unfold Header.parse
  by_cases hshort : data.length < headerSize
  · exact ⟨_, if_pos hshort, rfl⟩
  rw [if_neg hshort]
  by_cases hsigned : signature.isPrefixOf data = true
  · rw [hsigned]
    by_cases hversion : (data.getD 12 0).toNat = supportedVersion
    · refine absurd ⟨Nat.not_lt.mp hshort, (isPrefixOf_signature_iff data).mp hsigned, ?_⟩ h
      have hplace : 12 < data.length := by
        unfold headerSize at hshort
        omega
      rw [List.getD_eq_getElem?_getD, List.getElem?_eq_getElem hplace] at hversion
      rw [List.getElem?_eq_getElem hplace]
      exact congrArg some (UInt8.toNat_inj.mp hversion)
    · exact ⟨_, if_pos hversion, rfl⟩
  · rw [Bool.eq_false_iff.mpr hsigned]
    exact ⟨_, rfl, rfl⟩

theorem pulses_of_isReadable {data : Bytes} (h : IsReadable data) :
    pulses data = .ok (durations (stream data)) := by
  rw [pulses, parse_of_isReadable h, stream_eq]
  rfl

/-- A capture that is cut off behind its header still has that header. -/
theorem declaredLength_take (data : Bytes) {size : Nat} (hsize : headerSize ≤ size) :
    declaredLength (data.take size) = declaredLength data := by
  unfold headerSize at hsize
  rw [declaredLength, List.drop_take, List.take_take, Nat.min_eq_left (by omega)]
  rfl

theorem IsReadable.take {data : Bytes} (h : IsReadable data) {size : Nat}
    (hsize : headerSize ≤ size) : IsReadable (data.take size) := by
  refine ⟨?_, ?_, ?_⟩
  · rw [List.length_take]
    exact Nat.le_min.mpr ⟨hsize, h.whole⟩
  · unfold headerSize at hsize
    rw [List.take_take, Nat.min_eq_left (by omega)]
    exact h.signed
  · unfold headerSize at hsize
    rw [List.getElem?_take_of_lt (by omega)]
    exact h.version

theorem prefix_stream_take (data : Bytes) {size : Nat} (hsize : headerSize ≤ size) :
    stream (data.take size) <+: stream data := by
  rw [stream, stream, declaredLength_take data hsize, List.take_take, Nat.min_comm,
    ← List.take_take]
  exact List.IsPrefix.drop (List.take_prefix _ _) _

def redeclare (length : Nat) (data : Bytes) : Bytes :=
  data.take 16 ++ (Bytes.ofNumber 4 length ++ data.drop headerSize)

section

variable {data : Bytes} {length : Nat}

theorem length_take_of_isReadable (h : IsReadable data) : (data.take 16).length = 16 := by
  have hwhole := h.whole
  unfold headerSize at hwhole
  rw [List.length_take, Nat.min_eq_left (by omega)]

theorem declaredLength_redeclare (h : IsReadable data) (hlength : length ≤ declaredLength data) :
    declaredLength (redeclare length data) = length := by
  have hbound : declaredLength data < Nat.pow 256 4 := by
    refine Nat.lt_of_lt_of_le (Bytes.number_lt _) (Nat.pow_le_pow_right (by omega) ?_)
    rw [List.length_take]
    exact Nat.min_le_left _ _
  rw [declaredLength, redeclare, List.drop_left' (length_take_of_isReadable h),
    List.take_left' (Bytes.length_ofNumber 4 length), Bytes.number_ofNumber,
    Nat.mod_eq_of_lt (Nat.lt_of_le_of_lt hlength hbound)]

theorem IsReadable.redeclare (h : IsReadable data) (length : Nat) :
    IsReadable (redeclare length data) := by
  have hfront := length_take_of_isReadable h
  refine ⟨?_, ?_, ?_⟩
  · rw [Capture.redeclare, List.length_append, List.length_append, hfront, Bytes.length_ofNumber]
    unfold headerSize
    omega
  · rw [Capture.redeclare, List.take_append_of_le_length (by omega), List.take_take]
    exact h.signed
  · rw [Capture.redeclare, List.getElem?_append_left (by omega),
      List.getElem?_take_of_lt (by omega)]
    exact h.version

theorem prefix_stream_redeclare (h : IsReadable data) (hlength : length ≤ declaredLength data) :
    stream (redeclare length data) <+: stream data := by
  have hbehind : (redeclare length data).drop headerSize = data.drop headerSize := by
    have hhead : (data.take 16 ++ Bytes.ofNumber 4 length).length = headerSize := by
      rw [List.length_append, length_take_of_isReadable h, Bytes.length_ofNumber]
      rfl
    rw [redeclare, ← List.append_assoc, List.drop_left' hhead]
  rw [stream_eq, stream_eq, declaredLength_redeclare h hlength, hbehind]
  exact List.take_prefix_take_left hlength

end

/-- A capture is refused for its length, its signature or its version only. The stream of any other
capture is spelled by records in exactly one way, and what is read are their durations. Of a capture
that is cut off behind its header, or declares less, the first of them are read. -/
theorem pulses_grammar (data : Bytes) :
    ((∃ fault, pulses data = .error fault ∧ fault.kind = .format) ↔
      data.length < headerSize ∨ data.take 12 ≠ signature ∨ data[12]? ≠ some 1) ∧
    (¬ (data.length < headerSize ∨ data.take 12 ≠ signature ∨ data[12]? ≠ some 1) →
      ∃ records rest, Spells (stream data) records rest ∧
        (∀ others last, Spells (stream data) others last → others = records ∧ last = rest) ∧
        pulses data = .ok (records.map Record.duration) ∧
        (∀ size, headerSize ≤ size →
          ∃ kept, pulses (data.take size) = .ok kept ∧ kept <+: records.map Record.duration) ∧
        ∀ length ≤ declaredLength data, Header.parse (redeclare length data) = .ok ⟨1, length⟩ ∧
          ∃ kept, pulses (redeclare length data) = .ok kept ∧
            kept <+: records.map Record.duration) := by
  constructor
  · constructor
    · rintro ⟨fault, hfault, _⟩
      by_contra hnone
      rw [pulses_of_isReadable ((isReadable_iff data).mpr hnone)] at hfault
      contradiction
    · intro hrefused
      obtain ⟨fault, hparse, hkind⟩ :=
        exists_fault_of_not_isReadable fun h => (isReadable_iff data).mp h hrefused
      refine ⟨fault, ?_, hkind⟩
      rw [pulses, hparse]
      rfl
  · intro haccepted
    have h := (isReadable_iff data).mpr haccepted
    obtain ⟨records, rest, hspells⟩ := exists_spells (stream data)
    have hread : durations (stream data) = records.map Record.duration := hspells.readFrom_eq []
    refine ⟨records, rest, hspells, fun others last hothers => hspells.unique hothers, ?_, ?_, ?_⟩
    · rw [pulses_of_isReadable h, hread]
    · intro size hsize
      refine ⟨_, pulses_of_isReadable (h.take hsize), ?_⟩
      rw [← hread]
      exact prefix_durations (prefix_stream_take data hsize)
    · intro length hlength
      have hreadable := h.redeclare length
      refine ⟨?_, _, pulses_of_isReadable hreadable, ?_⟩
      · rw [parse_of_isReadable hreadable, declaredLength_redeclare h hlength]
      · rw [← hread]
        exact prefix_durations (prefix_stream_redeclare h hlength)

def cutCapture : Bytes :=
  signature ++ [1, 0, 0, 0] ++ [9, 0, 0, 0] ++ [7, 0, 1, 2, 3, 5, 0, 9, 9, 8]

theorem pulses_grammar_cutCapture :
    ¬ (cutCapture.length < headerSize ∨ cutCapture.take 12 ≠ signature ∨
        cutCapture[12]? ≠ some 1) ∧
      Spells (stream cutCapture) [.short 7 (by decide), .long 1 2 3, .short 5 (by decide)]
        [0, 9, 9] ∧
      pulses cutCapture = .ok [7, 0x030201, 5] ∧
      (∃ kept, pulses (cutCapture.take 24) = .ok kept ∧ kept <+: [7, 0x030201, 5]) ∧
      5 ≤ declaredLength cutCapture ∧ Header.parse (redeclare 5 cutCapture) = .ok ⟨1, 5⟩ := by
  have haccepted : ¬ (cutCapture.length < headerSize ∨ cutCapture.take 12 ≠ signature ∨
      cutCapture[12]? ≠ some 1) := by decide
  obtain ⟨records, rest, _, honly, hread, htake, hdeclare⟩ :=
    (pulses_grammar cutCapture).2 haccepted
  have hspells : Spells (stream cutCapture)
      [.short 7 (by decide), .long 1 2 3, .short 5 (by decide)] [0, 9, 9] :=
    ⟨by decide, Or.inr ⟨[9, 9], rfl, by decide⟩⟩
  obtain ⟨rfl, rfl⟩ := honly _ _ hspells
  have hlength : 5 ≤ declaredLength cutCapture := by decide
  exact ⟨haccepted, hspells, hread, htake 24 (by decide), hlength, (hdeclare 5 hlength).1⟩

end Capture

end TapeSalvage
