import Calculator.Number.Word
import Calculator.Proofs.Number.Bits
import Calculator.Proofs.Number.Nearest

/-!
# Exact values

A finite float has an exact value: a signed significand, scaled by a power of two. Every
value with a short significand and an exponent in range is that of a float. Remainders
never leave these values, and a sum that is among them is not rounded.
-/
namespace Calculator.Number
open Float.Model

/-! ## The value of a finite float -/

/-- Exact value of a sign and a magnitude. -/
def Binary.value (b : Binary) : ℚ :=
  (if b.negative then -1 else 1) * (b.significand * 2 ^ b.exponent)

/-- Exact value of a float; none for the infinities and for no number. -/
def value? (x : Float) : Option ℚ := (Binary.ofFloat? x).map Binary.value

/-- Significands and exponents that are those of a float. -/
structure Binary.Canonical (b : Binary) : Prop where
  scaled : IsScaled b.significand b.exponent
  below : b.exponent ≤ 971

/-- The sign of a sign bit. -/
def signOf (negative : Bool) : UnpackedFloat.Sign := if negative then .negative else .positive

/-- A sign and a magnitude as the parts of a float. -/
def Binary.unpacked (b : Binary) : UnpackedFloat :=
  if some : 0 < b.significand then .finite (signOf b.negative) b.significand b.exponent some
  else .zero (signOf b.negative)

theorem Binary.unpacked_of_pos (negative : Bool) {s m : ℕ} {k e : ℤ} (some : 0 < m)
    (significand : s = m) (exponent : k = e) :
    Binary.unpacked ⟨negative, s, k⟩ = .finite (signOf negative) m e some := by
  subst significand exponent
  exact dif_pos some

theorem Binary.unpacked_of_zero (negative : Bool) {s : ℕ} (k : ℤ) (none : s = 0) :
    Binary.unpacked ⟨negative, s, k⟩ = .zero (signOf negative) := dif_neg none.not_gt

theorem Binary.canonical_of_float {x : Float} {b : Binary} (finite : Binary.ofFloat? x = some b) :
    b.Canonical := by
  unfold Binary.ofFloat? at finite
  split at finite
  · rename_i less
    cases finite
    refine ⟨isScaled_of_bits less, ?_⟩
    rw [infinityBits] at less
    change exponentOf (magnitude x) ≤ 971
    unfold exponentOf
    split
    · omega
    · omega
  · cases finite

/-- The word of a float, as the parts are taken from it. -/
def wordOf (x : Float) : BitVec Format.binary64.numBits := x.toBits.toBitVec

theorem wordOf_toNat (x : Float) : (wordOf x).toNat = x.toBits.toNat := rfl

theorem sign_unpack (x : Float) :
    UnpackedFloat.Sign.ofBitVec (UnpackedFloat.unpackSign (wordOf x)) =
      signOf (isNegative x) := by
  have bit := sign_toNat (wordOf x)
  have size := x.toBits.toNat_lt
  rw [wordOf_toNat] at bit
  rcases BitVec.eq_zero_or_eq_one (UnpackedFloat.unpackSign (wordOf x)) with
    zero | one
  · have positive : isNegative x = false := by
      rw [zero] at bit
      change 0 = _ at bit
      exact decide_eq_false (by omega)
    rw [zero, positive]
    rfl
  · have negative : isNegative x = true := by
      rw [one] at bit
      change 1 = _ at bit
      exact decide_eq_true (by omega)
    rw [one, negative]
    rfl

/-- A finite float is taken apart into its sign and its magnitude. -/
theorem unpack_of_float {x : Float} {b : Binary} (finite : Binary.ofFloat? x = some b) :
    x.toModel.unpack = b.unpacked := by
  have sign := sign_unpack x
  have exponent := exponent_toNat (wordOf x)
  have mantissa := mantissa_toNat (wordOf x)
  rw [wordOf_toNat] at exponent mantissa
  unfold Binary.ofFloat? at finite
  split at finite
  · rename_i less
    cases finite
    rw [infinityBits] at less
    change UnpackedFloat.unpack .binary64 (wordOf x) = _
    rw [UnpackedFloat.unpack]
    dsimp only
    rw [sign]
    by_cases full : UnpackedFloat.unpackExponent (wordOf x) = -1#_
    · rw [full] at exponent
      change 2047 = _ at exponent
      rw [magnitude] at less
      omega
    · rw [if_neg full]
      by_cases least : UnpackedFloat.unpackExponent (wordOf x) = 0#_
      · rw [if_pos least]
        rw [least] at exponent ⊢
        change 0 = _ at exponent
        have small : magnitude x / 2 ^ 52 = 0 := by
          rw [magnitude]
          omega
        have significand : significandOf (magnitude x) =
            (UnpackedFloat.unpackMantissa (wordOf x)).toNat := by
          rw [significandOf, if_pos small, mantissa, magnitude]
          omega
        have scale : exponentOf (magnitude x) = -1074 := by
          rw [exponentOf, if_pos small]
        by_cases blank : UnpackedFloat.unpackMantissa (wordOf x) = 0#_
        · rw [dif_pos blank]
          rw [blank] at significand
          exact (Binary.unpacked_of_zero _ _ significand).symm
        · rw [dif_neg blank]
          exact (Binary.unpacked_of_pos _ _ significand scale).symm
      · rw [if_neg least]
        have other : (UnpackedFloat.unpackExponent (wordOf x)).toNat ≠ 0 :=
          fun same => least (BitVec.eq_of_toNat_eq same)
        have large : magnitude x / 2 ^ 52 =
            (UnpackedFloat.unpackExponent (wordOf x)).toNat := by
          rw [exponent, magnitude]
          omega
        have significand : significandOf (magnitude x) =
            (1#1 ++ UnpackedFloat.unpackMantissa (wordOf x)).toNat := by
          rw [significand_toNat, significandOf, if_neg (by omega), mantissa, magnitude]
          omega
        have scale : exponentOf (magnitude x) =
            (UnpackedFloat.unpackExponent (wordOf x)).toNat - 1075 := by
          rw [exponentOf, if_neg (by omega), large]
        exact (Binary.unpacked_of_pos _ _ significand scale).symm
  · cases finite

theorem Binary.isFinite_unpacked (b : Binary) : b.unpacked.isFinite = true := by
  unfold Binary.unpacked
  split
  · rfl
  · rfl

/-- A float without an exact value is infinite or no number. -/
theorem isFinite_of_none {x : Float} (infinite : Binary.ofFloat? x = none) :
    x.isFinite = false := by
  have exponent := exponent_toNat (wordOf x)
  rw [wordOf_toNat] at exponent
  have full : UnpackedFloat.unpackExponent (wordOf x) = -1#_ := by
    apply BitVec.eq_of_toNat_eq
    unfold Binary.ofFloat? at infinite
    split at infinite
    · cases infinite
    · rename_i large
      rw [infinityBits, magnitude] at large
      change _ = 2047
      omega
  change (UnpackedFloat.unpack .binary64 (wordOf x)).isFinite = false
  rw [UnpackedFloat.unpack]
  dsimp only
  rw [if_pos full]
  split
  · rfl
  · rfl

/-- A float is finite exactly if it has an exact value. -/
theorem isFinite_eq (x : Float) : x.isFinite = (value? x).isSome := by
  cases finite : Binary.ofFloat? x with
  | none =>
    rw [isFinite_of_none finite, value?, finite]
    rfl
  | some b =>
    have taken := unpack_of_float finite
    change x.toModel.unpack.isFinite = _
    rw [taken, b.isFinite_unpacked, value?, finite]
    rfl

theorem value?_of_float {x : Float} {b : Binary} (finite : Binary.ofFloat? x = some b) :
    value? x = some b.value := by rw [value?, finite, Option.map_some]

theorem exists_of_exact {x : Float} {r : ℚ} (exact : value? x = some r) :
    ∃ b, Binary.ofFloat? x = some b ∧ b.Canonical ∧ b.value = r := by
  obtain ⟨b, finite, same⟩ := Option.map_eq_some_iff.1 exact
  exact ⟨b, finite, Binary.canonical_of_float finite, same⟩

/-! ## Floats with a given value -/

theorem Binary.value_eq_zero_iff (b : Binary) : b.value = 0 ↔ b.significand = 0 := by
  have power : (2 : ℚ) ^ b.exponent ≠ 0 := by positivity
  unfold Binary.value
  split <;> simp [power]

theorem Binary.significand_pos {b : Binary} (nonzero : b.value ≠ 0) : 0 < b.significand :=
  Nat.pos_of_ne_zero (mt b.value_eq_zero_iff.2 nonzero)

/-- The float nearest to a value depends on the sign and the value alone. -/
theorem Binary.toFloat_congr {b c : Binary} (sign : b.negative = c.negative)
    (same : (b.significand : ℚ) * 2 ^ b.exponent = c.significand * 2 ^ c.exponent) :
    b.toFloat = c.toFloat := by
  have two : 1 < 2 := by decide
  rw [← Nat.cast_ofNat, ← ratio_eq two, ← ratio_eq two,
    div_eq_div_iff (by positivity) (by positivity)] at same
  have nearest := nearestMagnitude_congr (n := b.significand * 2 ^ b.exponent.toNat)
    (m := c.significand * 2 ^ c.exponent.toNat) (d := 2 ^ (-b.exponent).toNat)
    (e := 2 ^ (-c.exponent).toNat) (by positivity) (by positivity) (by exact_mod_cast same)
  rw [Binary.toFloat, Binary.toFloat, ofRatio, ofRatio, sign]
  exact congrArg (ofMagnitude c.negative) nearest

/-- A value with a short significand can be written with the significand of a float. -/
theorem exists_scaled {s : ℕ} {e : ℤ} (some : 0 < s) (short : s < 2 ^ 53) (least : -1074 ≤ e) :
    ∃ S E, 0 < S ∧ IsScaled S E ∧ E ≤ e ∧ (S : ℚ) * 2 ^ E = s * 2 ^ e := by
  have upper : s.log2 < 53 := (Nat.log2_lt some.ne').2 short
  obtain ⟨places, count⟩ : ∃ places, places = min (52 - s.log2) (e + 1074).toNat := ⟨_, rfl⟩
  refine ⟨s * 2 ^ places, e - places, by positivity, ⟨?_, by omega, ?_⟩, by omega, ?_⟩
  · calc s * 2 ^ places < 2 ^ (s.log2 + 1) * 2 ^ places := by
          gcongr
          exact Nat.lt_log2_self
      _ = 2 ^ (s.log2 + 1 + places) := (pow_add _ _ _).symm
      _ ≤ 2 ^ 53 := Nat.pow_le_pow_right (by decide) (by omega)
  · by_cases full : places = 52 - s.log2
    · left
      calc 2 ^ 52 = 2 ^ s.log2 * 2 ^ places := by rw [← pow_add]; congr 1; omega
        _ ≤ s * 2 ^ places := by
          gcongr
          exact Nat.log2_self_le some.ne'
    · right
      omega
  · rw [Nat.cast_mul, Nat.cast_pow, Nat.cast_ofNat, mul_assoc, ← zpow_natCast,
      ← zpow_add₀ (by norm_num)]
    congr 2
    omega

/-- The float of a canonical value has this value, in these parts. -/
theorem ofFloat?_toFloat {b : Binary} (some : 0 < b.significand) (canonical : b.Canonical) :
    Binary.ofFloat? b.toFloat = .some b := by
  obtain ⟨scaled, below⟩ := canonical
  have nearest := nearestMagnitude_scaled some scaled
  obtain ⟨fits, least, normal⟩ := scaled
  have finite : (b.exponent + 1074).toNat * 2 ^ 52 + b.significand < infinityBits := by
    rw [infinityBits]
    omega
  rw [Nat.min_eq_left finite.le] at nearest
  have same : b.toFloat =
      ofMagnitude b.negative ((b.exponent + 1074).toNat * 2 ^ 52 + b.significand) :=
    congrArg (ofMagnitude b.negative) nearest
  have significand : significandOf ((b.exponent + 1074).toNat * 2 ^ 52 + b.significand) =
      b.significand := by
    unfold significandOf
    split
    · omega
    · omega
  have exponent : exponentOf ((b.exponent + 1074).toNat * 2 ^ 52 + b.significand) =
      b.exponent := by
    unfold exponentOf
    split
    · omega
    · omega
  rw [same, Binary.ofFloat?, isNegative_ofMagnitude _ finite.le, magnitude_ofMagnitude _ finite.le,
    if_pos finite, significand, exponent]

/-- Every value with a short significand and an exponent in range is exactly that of its
    nearest float. -/
theorem value?_toFloat {b : Binary} (short : b.significand < 2 ^ 53) (least : -1074 ≤ b.exponent)
    (below : b.exponent ≤ 971) : value? b.toFloat = some b.value := by
  by_cases none : b.significand = 0
  · have zero : b.toFloat = ofMagnitude b.negative 0 := by
      rw [Binary.toFloat, ofRatio, none, Nat.zero_mul]
      rfl
    have value : b.value = 0 := b.value_eq_zero_iff.2 none
    have empty : magnitude (ofMagnitude b.negative 0) = 0 :=
      magnitude_ofMagnitude _ (Nat.zero_le _)
    rw [value?, zero, Binary.ofFloat?, empty, value, if_pos (by decide), Option.map_some,
      Option.some_inj]
    exact (Binary.value_eq_zero_iff _).2 rfl
  · obtain ⟨S, E, some, scaled, le, same⟩ := exists_scaled (Nat.pos_of_ne_zero none) short least
    have canonical : Binary.Canonical ⟨b.negative, S, E⟩ := ⟨scaled, le.trans below⟩
    have written : b.toFloat = Binary.toFloat ⟨b.negative, S, E⟩ :=
      Binary.toFloat_congr rfl same.symm
    rw [written, value?_of_float (ofFloat?_toFloat some canonical), Binary.value, Binary.value, same]

/-- Integers that are not too long are exactly those of their floats. -/
theorem value?_ofInt {i : ℤ} (short : i.natAbs < 2 ^ 53) : value? (ofInt i) = some (i : ℚ) := by
  have same : ofInt i = Binary.toFloat ⟨decide (i < 0), i.natAbs, 0⟩ := by
    simp [ofInt, Binary.toFloat]
  have value : Binary.value ⟨decide (i < 0), i.natAbs, 0⟩ = (i : ℚ) := by
    rw [Binary.value, zpow_zero, mul_one, Nat.cast_natAbs]
    by_cases negative : i < 0
    · simp [negative, abs_of_neg]
    · simp [negative, abs_of_nonneg (not_lt.1 negative)]
  have zero : (0 : ℤ) ≤ 971 := by decide
  rw [same, value?_toFloat short (by simp) zero, value]

end Calculator.Number
