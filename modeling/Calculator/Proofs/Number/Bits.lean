import Calculator.Number.Binary
import Mathlib

/-!
# The bits of floats

A float is exactly its bits: whole words of bits are taken apart and put together again
without loss, so a float is given by its sign and its magnitude. No number has exactly
one word, and behind the finite magnitudes only infinity is left. Negation changes the
sign and nothing else.
-/
namespace Calculator.Number
open Float.Model

/-! ## Words of bits -/

/-- The word of a sign, an exponent and a mantissa is exactly the word they come from. -/
theorem pack_parts (b : BitVec Format.binary64.numBits) :
    UnpackedFloat.packComponents .binary64 (.ofBitVec (UnpackedFloat.unpackSign b))
      (UnpackedFloat.unpackExponent b) (UnpackedFloat.unpackMantissa b) = b := by
  have sign : (UnpackedFloat.Sign.ofBitVec (UnpackedFloat.unpackSign b)).toBitVec =
      UnpackedFloat.unpackSign b := by
    rcases BitVec.eq_zero_or_eq_one (UnpackedFloat.unpackSign b) with zero | one
    · rw [zero]
      rfl
    · rw [one]
      rfl
  have upper : BitVec.extractLsb' 63 1 b ++ BitVec.extractLsb' 52 11 b =
      BitVec.extractLsb' 52 12 b := BitVec.extractLsb'_append_extractLsb'_eq_extractLsb' rfl
  have whole : BitVec.extractLsb' 52 12 b ++ BitVec.extractLsb' 0 52 b =
      BitVec.extractLsb' 0 64 b := BitVec.extractLsb'_append_extractLsb'_eq_extractLsb' rfl
  rw [UnpackedFloat.packComponents, sign]
  change BitVec.extractLsb' 63 1 b ++ BitVec.extractLsb' 52 11 b ++ BitVec.extractLsb' 0 52 b = b
  rw [upper, whole]
  exact BitVec.extractLsb'_eq_self

/-- A finite number below the normal ones is put together from its mantissa alone. -/
theorem pack_subnormal {s : UnpackedFloat.Sign} {m : BitVec 52} (positive : 0 < m.toNat) :
    UnpackedFloat.pack .binary64 (.finite s m.toNat (-1074) positive) =
      UnpackedFloat.packComponents .binary64 s 0#_ m := by
  have short : ¬ m.toNat.log2 + 1 = Format.binary64.mantissaBits := by
    have below := (Nat.log2_lt positive.ne').2 m.isLt
    have bits : Format.binary64.mantissaBits = 53 := rfl
    omega
  have fits : ¬ 2 ^ 11 ≤ ((-1074 : Int) + Format.binary64.exponentBias + (52 : Nat)).toNat + 1 := by
    decide
  rw [UnpackedFloat.pack]
  dsimp only
  rw [if_neg fits, if_neg short, BitVec.ofNat_toNat, BitVec.setWidth_eq]

/-- The significand of a normal number is its mantissa behind a leading one. -/
theorem significand_toNat (m : BitVec 52) : (1#1 ++ m).toNat = 2 ^ 52 + m.toNat := by
  rw [BitVec.toNat_append, ← Nat.shiftLeft_add_eq_or_of_lt m.isLt]
  rfl

/-- A normal finite number is put together from its exponent and its mantissa. -/
theorem pack_normal {s : UnpackedFloat.Sign} {e : BitVec 11} {m : BitVec 52}
    (bounded : e.toNat + 1 < 2 ^ 11) (positive : 0 < (1#1 ++ m).toNat) :
    UnpackedFloat.pack .binary64 (.finite s (1#1 ++ m).toNat ((e.toNat : Int) - 1075) positive) =
      UnpackedFloat.packComponents .binary64 s e m := by
  have significand := significand_toNat m
  have size := m.isLt
  have long : (1#1 ++ m).toNat.log2 + 1 = Format.binary64.mantissaBits := by
    have least := (Nat.le_log2 positive.ne').2 (significand ▸ Nat.le_add_right _ _)
    have below := (Nat.log2_lt positive.ne').2
      (show (1#1 ++ m).toNat < 2 ^ 53 by omega)
    have bits : Format.binary64.mantissaBits = 53 := rfl
    omega
  have mantissa : BitVec.ofNat 52 (1#1 ++ m).toNat = m := by
    apply BitVec.eq_of_toNat_eq
    rw [BitVec.toNat_ofNat, significand, Nat.add_mod_left, Nat.mod_eq_of_lt size]
  have biased :
      ((e.toNat : Int) - 1075 + Format.binary64.exponentBias + (52 : Nat)).toNat = e.toNat := by
    have bias : Format.binary64.exponentBias = 1023 := rfl
    omega
  rw [UnpackedFloat.pack]
  dsimp only
  rw [biased, if_neg (by omega), if_pos long, mantissa, BitVec.ofNat_toNat, BitVec.setWidth_eq]

/-- Valid words are taken apart and put together again without loss. -/
theorem pack_unpack {b : BitVec Format.binary64.numBits} (valid : Format.binary64.Valid b) :
    UnpackedFloat.pack .binary64 (UnpackedFloat.unpack .binary64 b) = b := by
  have word := pack_parts b
  rw [UnpackedFloat.unpack]
  dsimp only
  by_cases full : UnpackedFloat.unpackExponent b = -1#_
  · rw [if_pos full]
    by_cases blank : UnpackedFloat.unpackMantissa b = 0#_
    · rw [if_pos blank]
      rw [full, blank] at word
      exact word
    · rw [if_neg blank]
      exact (valid.eq_packedNaN full blank).symm
  · rw [if_neg full]
    by_cases least : UnpackedFloat.unpackExponent b = 0#_
    · rw [if_pos least]
      by_cases blank : UnpackedFloat.unpackMantissa b = 0#_
      · rw [dif_pos blank]
        rw [least, blank] at word
        exact word
      · rw [dif_neg blank]
        have positive : 0 < (UnpackedFloat.unpackMantissa b).toNat := by
          simpa [BitVec.toNat_pos, BitVec.pos_iff_ne_zero] using blank
        rw [least] at word ⊢
        exact (pack_subnormal positive).trans word
    · rw [if_neg least]
      have bounded : (UnpackedFloat.unpackExponent b).toNat + 1 < 2 ^ 11 := by
        have below := (UnpackedFloat.unpackExponent b).isLt
        have other : (UnpackedFloat.unpackExponent b).toNat ≠ 2 ^ 11 - 1 :=
          fun same => full (BitVec.eq_of_toNat_eq same)
        change _ < 2 ^ 11 at below
        omega
      exact (pack_normal bounded (by rw [significand_toNat]; omega)).trans word

/-! ## Sign and magnitude -/

/-- A float is exactly its bits. -/
theorem ofBits_toBits (x : Float) : Float.ofBits x.toBits = x := by
  obtain ⟨⟨bits, valid⟩⟩ := x
  have same : UInt64.ofBitVec (UnpackedFloat.pack .binary64
      (UnpackedFloat.unpack .binary64 bits.toBitVec)) = bits := by
    rw [pack_unpack valid, UInt64.ofBitVec_toBitVec]
  simp only [Float.ofBits, Float.toBits, ofBits, pack, same]

/-- A float is given by its sign and its magnitude. -/
theorem ofMagnitude_magnitude (x : Float) : ofMagnitude (isNegative x) (magnitude x) = x := by
  have size := x.toBits.toNat_lt
  have bits : (if isNegative x then 2 ^ 63 + magnitude x else magnitude x) = x.toBits.toNat := by
    by_cases negative : 2 ^ 63 ≤ x.toBits.toNat
    · simp only [isNegative, negative, decide_true, if_true, magnitude]
      omega
    · simp only [isNegative, negative, decide_false, Bool.false_eq_true, if_false, magnitude]
      omega
  rw [ofMagnitude, bits, UInt64.ofNat_toNat, ofBits_toBits]

/-! ## No number and infinity -/

/-- The word that stands for no number is the only one of its kind. -/
theorem eq_packedNaN {b : BitVec Format.binary64.numBits} (valid : Format.binary64.Valid b)
    (none : (UnpackedFloat.unpack .binary64 b).isNaN = true) :
    b = UnpackedFloat.packedNaN .binary64 := by
  have full : UnpackedFloat.unpackExponent b = -1#_ := by
    by_contra partly
    simp only [UnpackedFloat.unpack, if_neg partly] at none
    split at none
    · split at none
      · cases none
      · cases none
    · cases none
  refine valid.eq_packedNaN full fun blank => ?_
  simp only [UnpackedFloat.unpack, if_pos full, if_pos blank] at none
  cases none

/-- No number has exactly one float. -/
theorem eq_nan_of_isNaN {x : Float} (none : x.isNaN = true) : x = nan := by
  obtain ⟨⟨bits, valid⟩⟩ := x
  have same : bits = nan.toBits := by
    rw [← UInt64.ofBitVec_toBitVec bits, eq_packedNaN valid none]
    decide
  rw [← ofBits_toBits ⟨⟨bits, valid⟩⟩]
  exact (congrArg Float.ofBits same).trans (ofBits_toBits nan)

theorem exponent_toNat (b : BitVec Format.binary64.numBits) :
    (UnpackedFloat.unpackExponent b).toNat = b.toNat / 2 ^ 52 % 2 ^ 11 := by
  rw [UnpackedFloat.unpackExponent, BitVec.toNat_cast, BitVec.extractLsb_toNat,
    Nat.shiftRight_eq_div_pow]
  rfl

theorem mantissa_toNat (b : BitVec Format.binary64.numBits) :
    (UnpackedFloat.unpackMantissa b).toNat = b.toNat % 2 ^ 52 := by
  rw [UnpackedFloat.unpackMantissa, BitVec.toNat_cast, BitVec.extractLsb_toNat,
    Nat.shiftRight_zero]
  rfl

/-- The word of a number has no greater magnitude than infinity. -/
theorem toNat_mod_le {b : BitVec Format.binary64.numBits}
    (number : (UnpackedFloat.unpack .binary64 b).isNaN = false) :
    b.toNat % 2 ^ 63 ≤ infinityBits := by
  have exponent := exponent_toNat b
  have mantissa := mantissa_toNat b
  rw [infinityBits]
  by_cases full : UnpackedFloat.unpackExponent b = -1#_
  · have blank : UnpackedFloat.unpackMantissa b = 0#_ := by
      by_contra some
      simp only [UnpackedFloat.unpack, if_pos full, if_neg some] at number
      cases number
    rw [full] at exponent
    rw [blank] at mantissa
    change 2047 = _ at exponent
    change 0 = _ at mantissa
    omega
  · have other : (UnpackedFloat.unpackExponent b).toNat ≠ 2047 :=
      fun same => full (BitVec.eq_of_toNat_eq same)
    omega

/-- Behind the finite magnitudes a number has only that of infinity. -/
theorem magnitude_le {x : Float} (number : x.isNaN = false) : magnitude x ≤ infinityBits :=
  toNat_mod_le number

/-! ## Negation -/

theorem sign_toNat (b : BitVec Format.binary64.numBits) :
    (UnpackedFloat.unpackSign b).toNat = b.toNat / 2 ^ 63 % 2 := by
  rw [UnpackedFloat.unpackSign, BitVec.toNat_cast, BitVec.extractLsb_toNat,
    Nat.shiftRight_eq_div_pow]
  rfl

/-- A word with the other sign is taken apart into the negated parts. -/
theorem unpack_neg {b c : BitVec Format.binary64.numBits}
    (flipped : c.toNat = (b.toNat + 2 ^ 63) % 2 ^ 64) :
    UnpackedFloat.unpack .binary64 c = (UnpackedFloat.unpack .binary64 b).neg := by
  have exponent : UnpackedFloat.unpackExponent c = UnpackedFloat.unpackExponent b := by
    apply BitVec.eq_of_toNat_eq
    rw [exponent_toNat, exponent_toNat]
    omega
  have mantissa : UnpackedFloat.unpackMantissa c = UnpackedFloat.unpackMantissa b := by
    apply BitVec.eq_of_toNat_eq
    rw [mantissa_toNat, mantissa_toNat]
    omega
  have sign : UnpackedFloat.Sign.ofBitVec (UnpackedFloat.unpackSign c) =
      -UnpackedFloat.Sign.ofBitVec (UnpackedFloat.unpackSign b) := by
    have before := sign_toNat b
    have after := sign_toNat c
    rcases BitVec.eq_zero_or_eq_one (UnpackedFloat.unpackSign b) with zero | one
    · have other : UnpackedFloat.unpackSign c = 1#1 := by
        apply BitVec.eq_of_toNat_eq
        rw [zero] at before
        change 0 = _ at before
        change _ = 1
        omega
      rw [zero, other]
      rfl
    · have other : UnpackedFloat.unpackSign c = 0#1 := by
        apply BitVec.eq_of_toNat_eq
        rw [one] at before
        change 1 = _ at before
        change _ = 0
        omega
      rw [one, other]
      rfl
  rw [UnpackedFloat.unpack, UnpackedFloat.unpack]
  dsimp only
  simp only [exponent, mantissa, sign]
  split
  · split <;> rfl
  · split
    · split <;> rfl
    · rfl

/-- Negation keeps the magnitude and takes the other sign. -/
theorem neg_eq (x : Float) : -x = ofMagnitude (!isNegative x) (magnitude x) := by
  have size := x.toBits.toNat_lt
  have word : (if !isNegative x then 2 ^ 63 + magnitude x else magnitude x) =
      (x.toBits.toNat + 2 ^ 63) % 2 ^ 64 := by
    by_cases negative : 2 ^ 63 ≤ x.toBits.toNat
    · simp only [isNegative, negative, decide_true, Bool.not_true, Bool.false_eq_true, if_false,
        magnitude]
      omega
    · simp only [isNegative, negative, decide_false, Bool.not_false, if_true, magnitude]
      omega
  have flipped : UnpackedFloat.unpack .binary64
      (UInt64.ofNat ((x.toBits.toNat + 2 ^ 63) % 2 ^ 64)).toBitVec =
        (UnpackedFloat.unpack .binary64 x.toBits.toBitVec).neg := by
    apply unpack_neg
    rw [UInt64.toNat_toBitVec, UInt64.toNat_ofNat', UInt64.toNat_toBitVec]
    omega
  rw [ofMagnitude, word]
  change Float.ofModel (Float.Model.pack (UnpackedFloat.unpack .binary64 x.toBits.toBitVec).neg) =
    Float.ofModel (Float.Model.pack (UnpackedFloat.unpack .binary64
      (UInt64.ofNat ((x.toBits.toNat + 2 ^ 63) % 2 ^ 64)).toBitVec))
  rw [flipped]

/-! ## Made of a sign and a magnitude -/

/-- A word of no greater magnitude than infinity is not one of those that stand for no number. -/
theorem valid_of_mod_le {b : BitVec Format.binary64.numBits}
    (bounded : b.toNat % 2 ^ 63 ≤ infinityBits) : Format.binary64.Valid b where
  eq_packedNaN full some := by
    refine absurd (BitVec.eq_of_toNat_eq ?_) some
    have exponent := exponent_toNat b
    have mantissa := mantissa_toNat b
    rw [full] at exponent
    change 2047 = _ at exponent
    rw [infinityBits] at bounded
    change _ = 0
    omega

/-- A valid word is the word of its float. -/
theorem toBits_ofBits {word : UInt64} (valid : Format.binary64.Valid word.toBitVec) :
    (Float.ofBits word).toBits = word := by
  have same := congrArg UInt64.ofBitVec (pack_unpack valid)
  rwa [UInt64.ofBitVec_toBitVec] at same

section

variable {bits : Nat} (negative : Bool) (bounded : bits ≤ infinityBits)
include bounded

theorem toNat_toBits_ofMagnitude :
    (ofMagnitude negative bits).toBits.toNat = if negative then 2 ^ 63 + bits else bits := by
  rw [infinityBits] at bounded
  have size : (if negative then 2 ^ 63 + bits else bits) < 2 ^ 64 := by
    split <;> omega
  have word : (UInt64.ofNat (if negative then 2 ^ 63 + bits else bits)).toNat =
      if negative then 2 ^ 63 + bits else bits := by
    rw [UInt64.toNat_ofNat', Nat.mod_eq_of_lt size]
  rw [ofMagnitude, toBits_ofBits, word]
  refine valid_of_mod_le ?_
  rw [UInt64.toNat_toBitVec, word, infinityBits]
  split <;> omega

theorem isNegative_ofMagnitude : isNegative (ofMagnitude negative bits) = negative := by
  rw [isNegative, toNat_toBits_ofMagnitude negative bounded]
  rw [infinityBits] at bounded
  cases negative with
  | true => exact decide_eq_true (Nat.le_add_right _ _)
  | false => exact decide_eq_false (by simp only [Bool.false_eq_true, if_false]; omega)

theorem magnitude_ofMagnitude : magnitude (ofMagnitude negative bits) = bits := by
  rw [magnitude, toNat_toBits_ofMagnitude negative bounded]
  rw [infinityBits] at bounded
  split <;> omega

/-- The negation of a magnitude under a sign is this magnitude under the other one. -/
theorem neg_ofMagnitude : -ofMagnitude negative bits = ofMagnitude (!negative) bits := by
  rw [neg_eq, isNegative_ofMagnitude negative bounded, magnitude_ofMagnitude negative bounded]

end

/-- Negation flips the sign bit of a number. -/
theorem isNegative_neg {x : Float} (number : x.isNaN = false) : isNegative (-x) = !isNegative x := by
  rw [neg_eq, isNegative_ofMagnitude _ (magnitude_le number)]

/-- Negation keeps the bits of a number below its sign. -/
theorem magnitude_neg {x : Float} (number : x.isNaN = false) : magnitude (-x) = magnitude x := by
  rw [neg_eq, magnitude_ofMagnitude _ (magnitude_le number)]

theorem neg_nan : -nan = nan := rfl

/-- Negating twice gives the same bits back. -/
theorem neg_involutive : Function.Involutive fun x : Float => -x := by
  intro x
  dsimp only
  cases number : x.isNaN with
  | true => rw [eq_nan_of_isNaN number, neg_nan, neg_nan]
  | false =>
    rw [neg_eq x, neg_ofMagnitude _ (magnitude_le number), Bool.not_not, ofMagnitude_magnitude]

end Calculator.Number
