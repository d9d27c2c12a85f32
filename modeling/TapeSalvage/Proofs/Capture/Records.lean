import TapeSalvage.Capture

/-!
Captures are read back. A record is read as the duration it was written from whatever follows it,
and a capture whose stream is short enough for its declared length gives the stream back. A list of
durations has a capture exactly if records can hold all of them.
-/
namespace TapeSalvage.Capture

def Fits (duration : Int) : Prop := 0 ≤ duration ∧ duration ≤ longestPulse

instance (duration : Int) : Decidable (Fits duration) :=
  inferInstanceAs (Decidable (0 ≤ duration ∧ duration ≤ longestPulse))

def recordBytes (duration : Int) : Bytes :=
  if 1 ≤ duration ∧ duration ≤ 255 then [UInt8.ofNat duration.toNat]
  else 0 :: Bytes.ofNumber 3 duration.toNat

theorem record_of_fits {duration : Int} (h : Fits duration) :
    record duration = .ok (recordBytes duration) := by
  have hin : ¬ (duration < 0 ∨ longestPulse < duration) := by
    unfold Fits at h
    omega
  rw [record_intCast, if_neg hin, recordBytes]
  split <;> rfl

theorem mapM_record_of_fits {durations : List Int} (h : ∀ duration ∈ durations, Fits duration) :
    (durations.map fun duration : Int => (duration : Rat)).mapM record =
      .ok (durations.map recordBytes) := by
  induction durations with
  | nil => rfl
  | cons duration rest ih =>
    have hrest := ih fun d hd => h d (List.mem_cons_of_mem _ hd)
    rw [List.map_cons, List.mapM_cons, record_of_fits (h duration (List.mem_cons_self ..)), hrest]
    rfl

theorem readFrom_of_ne_zero {byte : UInt8} (h : byte ≠ 0) (done : List Nat) (rest : Bytes) :
    readFrom done (byte :: rest) = readFrom (byte.toNat :: done) rest := by
  rcases rest with _ | ⟨low, _ | ⟨middle, _ | ⟨high, rest⟩⟩⟩ <;> simp [readFrom, h]

/-- A record in front of a stream is read as its duration. -/
theorem readFrom_recordBytes {duration : Int} (h : Fits duration) (done : List Nat)
    (rest : Bytes) :
    readFrom done (recordBytes duration ++ rest) = readFrom (duration.toNat :: done) rest := by
  unfold Fits longestPulse at h
  unfold recordBytes
  split
  · rename_i hshort
    have hvalue : (UInt8.ofNat duration.toNat).toNat = duration.toNat :=
      UInt8.toNat_ofNat_of_lt' (show duration.toNat < 256 by omega)
    have hne : UInt8.ofNat duration.toNat ≠ 0 := by
      intro hzero
      rw [hzero, UInt8.toNat_zero] at hvalue
      omega
    rw [List.singleton_append, readFrom_of_ne_zero hne, hvalue]
  · have hnumber := Bytes.number_ofNumber 3 duration.toNat
    have hlt : duration.toNat < Nat.pow 256 3 := by
      change duration.toNat < 16777216
      omega
    rw [Nat.mod_eq_of_lt hlt] at hnumber
    change readFrom done (0 :: UInt8.ofNat _ :: UInt8.ofNat _ :: UInt8.ofNat _ :: rest) = _
    rw [readFrom, if_pos rfl]
    exact congrArg (fun value => readFrom (value :: done) rest) hnumber

theorem readFrom_records {durations : List Int} (h : ∀ duration ∈ durations, Fits duration)
    (done : List Nat) :
    readFrom done (durations.map recordBytes).flatten =
      done.reverse ++ durations.map Int.toNat := by
  induction durations generalizing done with
  | nil => simp [readFrom]
  | cons duration rest ih =>
    rw [List.map_cons, List.flatten_cons, readFrom_recordBytes (h duration (List.mem_cons_self ..)),
      ih fun d hd => h d (List.mem_cons_of_mem _ hd)]
    simp

theorem length_signature : signature.length = 12 := rfl

theorem length_ofStream (stream : Bytes) :
    (ofStream stream).length = headerSize + stream.length := by
  simp only [ofStream, List.length_append, length_signature, Bytes.length_ofNumber,
    List.length_cons, List.length_nil, headerSize]

/-- The header of a capture declares the length of its stream. -/
theorem parse_ofStream {stream : Bytes} (h : stream.length < Nat.pow 2 32) :
    Header.parse (ofStream stream) = .ok ⟨supportedVersion, stream.length⟩ := by
  have hlength := length_ofStream stream
  have hprefix : signature.isPrefixOf (ofStream stream) = true := by
    rw [List.isPrefixOf_iff_prefix, ofStream, List.append_assoc, List.append_assoc]
    exact List.prefix_append _ _
  have hversion : ((ofStream stream).getD 12 0).toNat = supportedVersion := rfl
  have hdeclared : ((ofStream stream).drop 16).take 4 = Bytes.ofNumber 4 stream.length := by
    rw [ofStream, List.append_assoc, List.append_assoc]
    change ((Bytes.ofNumber 4 stream.length ++ stream)).take 4 = _
    rw [List.take_left' (Bytes.length_ofNumber 4 _)]
  have hnumber := Bytes.number_ofNumber 4 stream.length
  rw [Nat.mod_eq_of_lt (show stream.length < Nat.pow 256 4 from h)] at hnumber
  rw [Header.parse, if_neg (by omega), hprefix, hdeclared, hnumber, hversion]
  rfl

theorem pulses_ofStream {stream : Bytes} (h : stream.length < Nat.pow 2 32) :
    pulses (ofStream stream) = .ok (durations stream) := by
  have hstream : (ofStream stream).drop headerSize = stream := by
    rw [ofStream]
    change (stream) = stream
    rfl
  rw [pulses, parse_ofStream h]
  change Except.ok (durations (((ofStream stream).drop headerSize).take stream.length)) = _
  rw [hstream, List.take_length]

def written (durations : List Int) : Bytes := ofStream (durations.map recordBytes).flatten

theorem encode_of_fits {durations : List Int} (h : ∀ duration ∈ durations, Fits duration) :
    encode (durations.map fun duration : Int => (duration : Rat)) = .ok (written durations) := by
  rw [encode, mapM_record_of_fits h]
  rfl

/-- Durations that records can hold are read back from their capture. -/
theorem pulses_written {durations : List Int} (h : ∀ duration ∈ durations, Fits duration)
    (hlength : (written durations).length < headerSize + Nat.pow 2 32) :
    pulses (written durations) = .ok (durations.map Int.toNat) := by
  rw [written, length_ofStream] at hlength
  rw [written, pulses_ofStream (by omega)]
  exact congrArg Except.ok (readFrom_records h [])

theorem not_fits_iff (duration : Int) : ¬ Fits duration ↔ duration < 0 ∨ 0xFFFFFF < duration := by
  unfold Fits longestPulse
  omega

theorem record_of_not_fits {duration : Int} (h : ¬ Fits duration) :
    record duration = .error (.pulseOutOfRange duration) := by
  have hout : duration < 0 ∨ longestPulse < duration := (not_fits_iff duration).mp h
  rw [record_intCast, if_pos hout]

/-- Writing ends at the first duration that no record can hold. -/
theorem mapM_record_of_not_fits {before : List Int} {duration : Int} (after : List Int)
    (hbefore : ∀ earlier ∈ before, Fits earlier) (h : ¬ Fits duration) :
    ((before ++ duration :: after).map fun duration : Int => (duration : Rat)).mapM record =
      .error (.pulseOutOfRange duration) := by
  have hrecords := mapM_record_of_fits hbefore
  rw [List.map_append, List.mapM_append, hrecords, List.map_cons, List.mapM_cons,
    record_of_not_fits h]
  rfl

/-- The capture of a list of durations, or the fault of the first one that no record can hold. -/
theorem encode_intCast (durations : List Int) :
    encode (durations.map fun duration : Int => (duration : Rat)) =
      match durations.find? (fun duration => !decide (Fits duration)) with
      | some duration => .error (.pulseOutOfRange duration)
      | none => .ok (written durations) := by
  cases hfind : durations.find? (fun duration => !decide (Fits duration)) with
  | none =>
    have hall : ∀ duration ∈ durations, Fits duration := by
      simpa using List.find?_eq_none.mp hfind
    exact encode_of_fits hall
  | some duration =>
    obtain ⟨hnot, before, after, rfl, hbefore⟩ := List.find?_eq_some_iff_append.mp hfind
    have hfits : ∀ earlier ∈ before, Fits earlier := by
      simpa using hbefore
    rw [encode, mapM_record_of_not_fits after hfits (by simpa using hnot)]
    rfl

/-- Durations can be written exactly if each of them is in range, and else the fault names one that
is not. A capture that was written declares the length of its stream and is read as the durations,
if that length is a number of four bytes. -/
theorem pulses_encode (durations : List Int) :
    ((∃ fault, encode (durations.map fun duration : Int => (duration : Rat)) = .error fault) ↔
      ∃ duration ∈ durations, duration < 0 ∨ 0xFFFFFF < duration) ∧
    (∀ fault, encode (durations.map fun duration : Int => (duration : Rat)) = .error fault →
      ∃ duration ∈ durations, (duration < 0 ∨ 0xFFFFFF < duration) ∧
        fault = .pulseOutOfRange duration) ∧
    ∀ capture, encode (durations.map fun duration : Int => (duration : Rat)) = .ok capture →
      capture.length - 20 < Nat.pow 2 32 →
      20 ≤ capture.length ∧ Header.parse capture = .ok ⟨1, capture.length - 20⟩ ∧
      ∃ read : List Nat, pulses capture = .ok read ∧
        read.map (fun n : Nat => (n : Int)) = durations := by
  rw [encode_intCast]
  cases hfind : durations.find? (fun duration => !decide (Fits duration)) with
  | some duration =>
    have hmem : duration ∈ durations := List.mem_of_find?_eq_some hfind
    have hnot : ¬ Fits duration := by simpa using List.find?_some hfind
    have hout := (not_fits_iff duration).mp hnot
    refine ⟨⟨fun _ => ⟨duration, hmem, hout⟩, fun _ => ⟨_, rfl⟩⟩, ?_, by simp⟩
    intro fault hfault
    exact ⟨duration, hmem, hout, (Except.error.inj hfault).symm⟩
  | none =>
    have hall : ∀ duration ∈ durations, Fits duration := by
      simpa using List.find?_eq_none.mp hfind
    refine ⟨⟨by simp, ?_⟩, by simp, ?_⟩
    · rintro ⟨duration, hmem, hout⟩
      exact absurd (hall duration hmem) ((not_fits_iff duration).mpr hout)
    · intro capture hcapture hshort
      obtain rfl := Except.ok.inj hcapture
      have hsize : (written durations).length =
          headerSize + (durations.map recordBytes).flatten.length := length_ofStream _
      unfold headerSize at hsize
      have hlength : (written durations).length - 20 =
          (durations.map recordBytes).flatten.length := by omega
      have hparse : Header.parse (written durations) =
          .ok ⟨1, (durations.map recordBytes).flatten.length⟩ :=
        parse_ofStream (hlength ▸ hshort)
      have hread : pulses (written durations) = .ok (durations.map Int.toNat) := by
        apply pulses_written hall
        unfold headerSize
        omega
      have hsame : (durations.map Int.toNat).map (fun n : Nat => (n : Int)) = durations := by
        rw [List.map_map]
        refine (List.map_congr_left fun duration hmem => ?_).trans (List.map_id _)
        exact Int.toNat_of_nonneg (hall duration hmem).1
      rw [hlength]
      exact ⟨by omega, hparse, _, hread, hsame⟩

/-- Short and long records side by side, with zero bytes inside the long ones. -/
def mixedPulses : List Int := [1, 0, 256, 255, 0xFFFFFF, 0x10000, 7, 0]

theorem pulses_encode_mixedPulses :
    ∃ capture, encode (mixedPulses.map fun duration : Int => (duration : Rat)) = .ok capture ∧
      capture.length - 20 < Nat.pow 2 32 ∧
      Header.parse capture = .ok ⟨1, 23⟩ ∧
      pulses capture = .ok [1, 0, 256, 255, 0xFFFFFF, 0x10000, 7, 0] := by
  have hfits : ∀ duration ∈ mixedPulses, Fits duration := by decide
  have hwritten := encode_of_fits hfits
  have hlength : (written mixedPulses).length = 43 := by decide
  have hshort : (written mixedPulses).length - 20 < Nat.pow 2 32 := by
    rw [hlength]
    decide
  obtain ⟨_, hparse, read, hread, hsame⟩ :=
    (pulses_encode mixedPulses).2.2 (written mixedPulses) hwritten hshort
  have hlist : read = [1, 0, 256, 255, 0xFFFFFF, 0x10000, 7, 0] :=
    (List.map_inj_right fun _ _ => Int.ofNat.inj).mp hsame
  rw [hlength] at hparse
  exact ⟨_, hwritten, hshort, hparse, hlist ▸ hread⟩

end TapeSalvage.Capture
