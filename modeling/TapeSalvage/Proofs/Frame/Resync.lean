import TapeSalvage.Frame
import Mathlib.Data.List.Infix

/-!
Reading finds its place again. No frame begins inside another one, since only the first symbol of
a frame is long; so the bytes that are read are those of all frames that stand anywhere among the
symbols, and a frame that begins before a long symbol ends before it.
-/
namespace TapeSalvage.Frame

open Pulse

/-- Symbols that write a number begin with its pairs. -/
theorem eq_pairs_of_number? (count value : Nat) (symbols : List Symbol)
    (h : number? count symbols = some value) :
    value < Nat.pow 2 count ∧ ∃ rest, symbols = pairs count value ++ rest := by
  induction count generalizing value symbols with
  | zero =>
    have hvalue : value = 0 := by simpa [number?, eq_comm] using h
    subst hvalue
    exact ⟨Nat.one_pos, symbols, rfl⟩
  | succ count ih =>
    rcases symbols with _ | ⟨first, _ | ⟨second, rest⟩⟩
    · contradiction
    · contradiction
    · simp only [number?, Option.bind_eq_bind, Option.bind_eq_some_iff, Option.pure_def,
        Option.some.injEq] at h
      obtain ⟨bit, hbit, higher, hhigher, rfl⟩ := h
      obtain ⟨hbound, after, rfl⟩ := ih higher rest hhigher
      have hpair : pair bit = [first, second] := by
        cases first <;> cases second <;> simp_all [bit?, pair]
      have hlow : ((bit.toNat + 2 * higher) % 2 == 1) = bit := by
        cases bit <;> simp
      have hhigh : (bit.toNat + 2 * higher) / 2 = higher := by
        have := Bool.toNat_lt bit
        omega
      have hgrow : Nat.pow 2 (count + 1) = 2 * Nat.pow 2 count := Nat.pow_succ'
      have := Bool.toNat_lt bit
      refine ⟨by omega, after, ?_⟩
      rw [pairs, hlow, hhigh, hpair]
      rfl

theorem mark_of_isMarked (symbols : List Symbol) (h : isMarked symbols = true) :
    ∃ mark rest, (mark = .short ∨ mark = .medium) ∧ symbols = .long :: mark :: rest := by
  match symbols, h with
  | .long :: .short :: rest, _ => exact ⟨.short, rest, Or.inl rfl, rfl⟩
  | .long :: .medium :: rest, _ => exact ⟨.medium, rest, Or.inr rfl, rfl⟩

/-- A frame stands at the front exactly where a marker is followed by the pairs of its byte. -/
theorem byteAt?_eq_some_iff (symbols : List Symbol) (byte : UInt8) :
    byteAt? symbols = some byte ↔ ∃ mark rest, (mark = .short ∨ mark = .medium) ∧
      symbols = .long :: mark :: (pairs 8 byte.toNat ++ rest) := by
  constructor
  · intro h
    unfold byteAt? at h
    split at h
    · rename_i hmarked
      obtain ⟨mark, after, hmark, rfl⟩ := mark_of_isMarked symbols hmarked
      obtain ⟨value, hvalue, rfl⟩ := Option.map_eq_some_iff.mp h
      obtain ⟨hbound, rest, hrest⟩ := eq_pairs_of_number? 8 value after hvalue
      have hbyte : (UInt8.ofNat value).toNat = value := UInt8.toNat_ofNat_of_lt' hbound
      refine ⟨mark, rest, hmark, ?_⟩
      rw [hbyte, hrest]
    · simp at h
  · rintro ⟨mark, rest, hmark, rfl⟩
    have henough : holds 16 (pairs 8 byte.toNat ++ rest) = true := by
      rw [holds_iff, List.length_append, length_pairs]
      omega
    have hmarked : isMarked (.long :: mark :: (pairs 8 byte.toNat ++ rest)) = true := by
      rcases hmark with rfl | rfl <;> exact henough
    have hvalue : byte.toNat % Nat.pow 2 8 = byte.toNat := Nat.mod_eq_of_lt byte.toNat_lt
    rw [byteAt?, if_pos hmarked]
    change (number? 8 (pairs 8 byte.toNat ++ rest)).map UInt8.ofNat = some byte
    rw [number?_pairs, hvalue]
    simp

theorem long_notMem_pairs (count value : Nat) : Symbol.long ∉ pairs count value := by
  induction count generalizing value with
  | zero => simp [pairs]
  | succ count ih =>
    have hpair : ∀ bit, Symbol.long ∉ pair bit := by decide
    simp only [pairs, List.mem_append, not_or]
    exact ⟨hpair _, ih _⟩

/-- No marker stands inside a frame: its symbols after the first are short or medium. -/
theorem long_notMem_of_byteAt? (symbol : Symbol) (rest : List Symbol) (byte : UInt8)
    (h : byteAt? (symbol :: rest) = some byte) : Symbol.long ∉ rest.take (size - 1) := by
  obtain ⟨mark, after, hmark, heq⟩ := (byteAt?_eq_some_iff _ _).mp h
  obtain ⟨rfl, rfl⟩ := List.cons.inj heq
  have htake : (mark :: (pairs 8 byte.toNat ++ after)).take (size - 1) =
      mark :: pairs 8 byte.toNat := by
    change mark :: (pairs 8 byte.toNat ++ after).take 16 = _
    rw [List.take_left' (length_pairs 8 _)]
  rw [htake, List.mem_cons, not_or]
  refine ⟨?_, long_notMem_pairs 8 _⟩
  rcases hmark with rfl | rfl <;> simp

def placed (symbols : List Symbol) : Bytes := symbols.tails.filterMap byteAt?

theorem placed_cons (symbol : Symbol) (rest : List Symbol) :
    placed (symbol :: rest) = (byteAt? (symbol :: rest)).toList ++ placed rest := by
  rw [placed, List.tails, List.filterMap_cons]
  cases byteAt? (symbol :: rest) <;> rfl

theorem placed_nil : placed [] = [] := rfl

theorem byteAt?_eq_none_of_ne_long (symbol : Symbol) (rest : List Symbol)
    (h : symbol ≠ .long) : byteAt? (symbol :: rest) = none := by
  rw [Option.eq_none_iff_forall_ne_some]
  intro byte hbyte
  obtain ⟨mark, after, _, heq⟩ := (byteAt?_eq_some_iff _ _).mp hbyte
  exact h (List.cons.inj heq).1

/-- No frame stands where there is no long symbol. -/
theorem placed_drop (count : Nat) (symbols : List Symbol)
    (h : Symbol.long ∉ symbols.take count) : placed (symbols.drop count) = placed symbols := by
  induction count generalizing symbols with
  | zero => rfl
  | succ count ih =>
    cases symbols with
    | nil => rfl
    | cons symbol rest =>
      simp only [List.take_succ_cons, List.mem_cons, not_or] at h
      rw [placed_cons, byteAt?_eq_none_of_ne_long symbol rest (Ne.symm h.1)]
      exact ih rest h.2

/-- Reading spells out all frames: skipping the symbols of a frame misses none. -/
theorem bytes_decodeFrom (skip : Nat) (done : Decoded) (symbols : List Symbol) :
    (decodeFrom skip done symbols).bytes = done.bytes.reverse ++ placed (symbols.drop skip) := by
  induction symbols generalizing skip done with
  | nil => simp [decodeFrom, placed_nil]
  | cons symbol rest ih =>
    cases skip with
    | succ skip => exact ih skip done
    | zero =>
      rw [List.drop_zero, placed_cons, decodeFrom]
      split
      · cases hbyte : byteAt? (symbol :: rest) with
        | some byte =>
          -- The rest of the frame is passed over, but no frame begins in it.
          have hinside := long_notMem_of_byteAt? symbol rest byte hbyte
          dsimp only
          rw [ih, placed_drop (size - 1) rest hinside]
          simp
        | none =>
          dsimp only
          rw [ih]
          rfl
      · rename_i hmarked
        have hnone : byteAt? (symbol :: rest) = none := if_neg hmarked
        rw [ih, hnone]
        rfl

theorem bytes_decode (symbols : List Symbol) : (decode symbols).bytes = placed symbols :=
  bytes_decodeFrom 0 _ symbols

/-- A frame that begins before a long symbol also ends before it. -/
theorem byteAt?_append_long (symbol : Symbol) (before after : List Symbol) :
    byteAt? (symbol :: before ++ .long :: after) = byteAt? (symbol :: before) := by
  apply Option.ext
  intro byte
  rw [byteAt?_eq_some_iff, byteAt?_eq_some_iff]
  constructor
  · rintro ⟨mark, rest, hmark, heq⟩
    obtain ⟨rfl, hsplit⟩ := List.cons.inj heq
    change before ++ .long :: after = (mark :: pairs 8 byte.toNat) ++ rest at hsplit
    rcases List.append_eq_append_iff.mp hsplit with ⟨inner, hframe, hrest⟩ | ⟨inner, hbefore, _⟩
    · cases inner with
      | nil => exact ⟨mark, [], hmark, by rw [List.append_nil] at hframe ⊢; rw [hframe]⟩
      | cons first inner =>
        obtain ⟨rfl, _⟩ := List.cons.inj hrest
        have hmem : Symbol.long ∈ mark :: pairs 8 byte.toNat := by simp [hframe]
        rcases List.mem_cons.mp hmem with rfl | hpairs
        · simp at hmark
        · exact absurd hpairs (long_notMem_pairs 8 _)
    · exact ⟨mark, inner, hmark, by rw [hbefore]; rfl⟩
  · rintro ⟨mark, rest, hmark, heq⟩
    refine ⟨mark, rest ++ .long :: after, hmark, ?_⟩
    rw [heq]
    simp

/-- No frame stands across the place where a long symbol begins. -/
theorem placed_append_long (before after : List Symbol) :
    placed (before ++ .long :: after) = placed before ++ placed (.long :: after) := by
  induction before with
  | nil => rfl
  | cons symbol before ih =>
    rw [List.cons_append, placed_cons, placed_cons, ih, ← List.cons_append, byteAt?_append_long,
      List.append_assoc]

theorem placed_ofByte_append (byte : UInt8) (rest : List Symbol) :
    placed (ofByte byte ++ rest) = byte :: placed rest := by
  have hbyte := byteAt?_ofByte byte rest
  change byteAt? (.long :: .medium :: (pairs 8 byte.toNat ++ rest)) = some byte at hbyte
  have hinside := long_notMem_of_byteAt? _ _ byte hbyte
  change placed (.long :: .medium :: (pairs 8 byte.toNat ++ rest)) = _
  have hdrop : (Symbol.medium :: (pairs 8 byte.toNat ++ rest)).drop (size - 1) = rest := by
    change (pairs 8 byte.toNat ++ rest).drop 16 = rest
    rw [List.drop_left' (length_pairs 8 _)]
  rw [placed_cons, hbyte, ← placed_drop (size - 1) _ hinside, hdrop]
  rfl

theorem placed_encode_append (data : Bytes) (rest : List Symbol) :
    placed (encode data ++ rest) = data ++ placed rest := by
  induction data with
  | nil => rfl
  | cons byte data ih =>
    rw [encode, List.flatMap_cons, List.append_assoc, placed_ofByte_append]
    exact congrArg (byte :: ·) ih

/-- Intact frames are read as the bytes they were written from, whatever stands around them, and
cost nothing of what stands around them. -/
theorem bytes_decode_around_encode :
    (∀ (before after : List Symbol) (data : Bytes), data ≠ [] →
      (decode (before ++ encode data ++ after)).bytes =
        (decode before).bytes ++ data ++ (decode after).bytes) ∧
    ∀ data : Bytes, (decode (encode data)).bytes = data := by
  constructor
  · intro before after data hdata
    obtain ⟨byte, rest, rfl⟩ := List.exists_cons_of_ne_nil hdata
    have hplaced : placed (encode (byte :: rest) ++ after) = byte :: rest ++ placed after :=
      placed_encode_append _ _
    rw [bytes_decode, bytes_decode, bytes_decode, List.append_assoc, List.append_assoc, ← hplaced]
    exact placed_append_long before _
  · intro data
    have hplaced := placed_encode_append data []
    rw [List.append_nil, placed_nil, List.append_nil] at hplaced
    rw [bytes_decode, hplaced]

/-- A letter behind a marker that would reach into its frame. -/
theorem bytes_decode_around_encode_letter :
    (decode ([.long, .short, .medium] ++ encode [0x41] ++ [.unknown])).bytes =
      (decode [.long, .short, .medium]).bytes ++ [0x41] ++ (decode [.unknown]).bytes :=
  bytes_decode_around_encode.1 _ _ _ (by decide)

end TapeSalvage.Frame
