import TapeSalvage.Program
import TapeSalvage.Proofs.Amount.Rounding
import TapeSalvage.Proofs.Bytes.Words

/-!
What is assembled. A program comes from an address range that is not empty, and it is as long as
that range or as the payloads, whichever is shorter; something is missing exactly if the payloads
are the shorter ones.
-/
namespace TapeSalvage.Program

theorem Image.loadAddress_create_lt (start : Int) (body : Bytes) :
    (Image.create start body).loadAddress < 65536 := by
  change (start % 65536).toNat < 65536
  omega

/-- A program file is read as the image that it was made of. -/
theorem Image.ofBytes_bytes {image : Image} (h : image.loadAddress < 65536) :
    Image.ofBytes image.bytes = .ok image := by
  rw [Image.bytes, Bytes.ofWord_natCast h]
  change Except.ok (Image.mk (word _ _) image.body) = _
  rw [word_ofNat h]

theorem loadAddress_lt_of_assemble {limit start finish : Int} {payloads : List Bytes}
    {assembly : Assembly} (h : assemble limit start finish payloads = .ok assembly) :
    assembly.image.loadAddress < 65536 := by
  unfold assemble at h
  dsimp only at h
  split at h
  · contradiction
  · obtain rfl := Except.ok.inj h
    exact Image.loadAddress_create_lt start _

/-- Between two addresses that are words a program is cut off at their distance. -/
theorem eq_of_assemble {limit : Int} {start finish : Nat} (hstart : start < 65536)
    (hfinish : finish < 65536) {payloads : List Bytes} {assembly : Assembly}
    (h : assemble limit start finish payloads = .ok assembly) :
    start < finish ∧ assembly.image.body = payloads.flatten.take (finish - start) ∧
      assembly.shortfall = Shortfall.of? (finish - start) assembly.image.body.length := by
  have hexact : Amount.roundInt ((finish : Int) - start) = finish - start := by
    apply Amount.roundInt_eq_self
    have hlimit : 65536 ≤ Amount.exactLimit := by decide
    omega
  unfold assemble at h
  dsimp only at h
  rw [hexact] at h
  split at h
  · contradiction
  · rename_i hlength
    simp only [Bool.or_eq_true, decide_eq_true_eq, not_or] at hlength
    obtain rfl := Except.ok.inj h
    have hdeclared : ((finish : Int) - start).toNat = finish - start := by omega
    refine ⟨by omega, ?_, ?_⟩
    · exact congrArg (payloads.flatten.take ·) hdeclared
    · exact congrArg (Shortfall.of? · _) hdeclared

/-- Any payloads are assembled between addresses that are as far apart as a program is long. -/
theorem exists_assemble {limit start finish : Int} (hpos : 0 < finish - start)
    (hlimit : finish - start ≤ limit) (hexact : finish - start ≤ Amount.exactLimit)
    (payloads : List Bytes) : ∃ assembly, assemble limit start finish payloads = .ok assembly := by
  have hround : Amount.roundInt (finish - start) = finish - start :=
    Amount.roundInt_eq_self (by omega)
  unfold assemble
  dsimp only
  rw [hround, if_neg]
  · exact ⟨_, rfl⟩
  · simp only [Bool.or_eq_true, decide_eq_true_eq, not_or]
    omega

/-- Something is missing of a program exactly if less was assembled than declared, and then the two
parts make up the whole. -/
theorem Shortfall.of?_spec (declared assembled : Nat) :
    ((Shortfall.of? declared assembled).isSome = true ↔ assembled < declared) ∧
      ∀ shortfall ∈ Shortfall.of? declared assembled, shortfall.declared = declared ∧
        shortfall.assembled = assembled ∧ shortfall.assembled + shortfall.missing = declared := by
  unfold Shortfall.of?
  split
  · rename_i hshort
    refine ⟨by simpa using hshort, ?_⟩
    intro shortfall hmem
    obtain rfl := Option.some.inj hmem
    exact ⟨rfl, rfl, Nat.add_sub_cancel' (Nat.le_of_lt hshort)⟩
  · rename_i hwhole
    exact ⟨by simpa using hwhole, by simp⟩

theorem length_flatten_of_whole {size : Nat} {payloads : List Bytes}
    (h : ∀ payload ∈ payloads, payload.length = size) :
    payloads.flatten.length = size * payloads.length := by
  induction payloads with
  | nil => rfl
  | cons payload rest ih =>
    rw [List.flatten_cons, List.length_append, h payload (List.mem_cons_self ..),
      ih fun other hother => h other (List.mem_cons_of_mem _ hother), List.length_cons,
      Nat.mul_succ, Nat.add_comm]

end TapeSalvage.Program
