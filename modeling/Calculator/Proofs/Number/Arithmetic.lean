import Calculator.Proofs.Number.Exact

/-!
# Exact arithmetic

Where the exact result of an operation on floats is itself the value of a float, the
operation comes to it: rounding has nothing to drop. This is so for every remainder, for
the sums that a Euclidean remainder needs, and for the conversion of naturals to words.
-/
namespace Calculator.Number
open Float.Model

/-! ## Rounding what needs no rounding -/

/-- Shifting a mantissa back leaves no residue. -/
theorem shiftRight_exact (m n : ℕ) :
    (⟨m * 2 ^ n, false, false⟩ : UnpackedFloat.ExtendedMantissa) >>> n = ⟨m, false, false⟩ := by
  change Nat.repeat UnpackedFloat.ExtendedMantissa.shiftRightOne n ⟨m * 2 ^ n, false, false⟩ = _
  induction n generalizing m with
  | zero => rw [pow_zero, mul_one]; rfl
  | succ n ih =>
    have before := ih (m * 2)
    rw [mul_assoc, ← pow_succ'] at before
    rw [Nat.repeat, before, UnpackedFloat.ExtendedMantissa.shiftRightOne]
    simp

/-- Of two ways to write a value, that with the lesser exponent has the mantissa of the
    other one behind a shift. -/
theorem mantissa_of_le {S m : ℕ} {E e : ℤ} (le : e ≤ E) (same : (m : ℚ) * 2 ^ e = S * 2 ^ E) :
    m = S * 2 ^ (E - e).toNat := by
  have two : (2 : ℚ) ≠ 0 := by norm_num
  have power : (2 : ℚ) ^ E = 2 ^ (E - e).toNat * 2 ^ e := by
    rw [← zpow_natCast, ← zpow_add₀ two]
    congr 1
    omega
  rw [power, ← mul_assoc] at same
  exact_mod_cast mul_right_cancel₀ (zpow_ne_zero e two) same

/-- Aligned to a lesser exponent, a mantissa keeps its value. -/
theorem decreaseExponent_value (m : ℕ) (e E : ℤ) :
    ((UnpackedFloat.decreaseExponent m e E).1 : ℚ) * 2 ^ (UnpackedFloat.decreaseExponent m e E).2 =
      m * 2 ^ e := by
  rw [UnpackedFloat.decreaseExponent, Nat.shiftLeft_eq, Nat.cast_mul, Nat.cast_pow, Nat.cast_ofNat,
    mul_assoc, ← zpow_natCast, ← zpow_add₀ (by norm_num)]
  congr 2
  omega

theorem decreaseExponent_le (m : ℕ) (e E : ℤ) : (UnpackedFloat.decreaseExponent m e E).2 ≤ E := by
  rw [UnpackedFloat.decreaseExponent]
  omega

/-- A mantissa is shifted to a greater exponent without residue if nothing is lost. -/
theorem shiftToExponent_exact {S m : ℕ} {E e : ℤ} (le : e ≤ E)
    (same : (m : ℚ) * 2 ^ e = S * 2 ^ E) :
    UnpackedFloat.shiftToExponent m e .exact E = (⟨S, false, false⟩, E) := by
  rw [UnpackedFloat.shiftToExponent, mantissa_of_le le same]
  dsimp only [UnpackedFloat.ExtendedMantissa.ofMantissaAndAccuracy]
  rw [shiftRight_exact]
  congr 1
  omega

section

variable {S m : ℕ} {E e : ℤ} (some : 0 < S) (same : (m : ℚ) * 2 ^ e = S * 2 ^ E)
include some same

theorem mantissa_pos : 0 < m := by
  have positive : (0 : ℚ) < S * 2 ^ E := by positivity
  rw [← same] at positive
  exact_mod_cast (mul_pos_iff_of_pos_right (by positivity)).1 positive

/-- Two ways to write a value have the same leading place. -/
theorem totalExponent_eq : totalExponent m e = totalExponent S E := by
  have first := floorLog2_scaled e (mantissa_pos some same)
  have second := floorLog2_scaled E some
  have ratio : ((m * 2 ^ e.toNat : ℕ) : ℚ) / (2 ^ (-e).toNat : ℕ) =
      ((S * 2 ^ E.toNat : ℕ) : ℚ) / (2 ^ (-E).toNat : ℕ) := by
    rw [ratio_eq (by decide), ratio_eq (by decide), Nat.cast_ofNat, same]
  have positive := mantissa_pos some same
  rw [floorLog2_eq (by positivity) (by positivity), ratio,
    ← floorLog2_eq (by positivity) (by positivity), second] at first
  rw [totalExponent, totalExponent]
  omega

/-- The exponent that rounding aims at is that of the float. -/
theorem targetExponent_eq (scaled : IsScaled S E) :
    Format.binary64.targetExponent (totalExponent m e) = E := by
  obtain ⟨fits, least, normal⟩ := scaled
  have upper : S.log2 < 53 := (Nat.log2_lt some.ne').2 fits
  have minimum : Format.binary64.minExponent = -1074 := by decide
  have bits : (Format.binary64.mantissaBits : ℤ) = 53 := by decide
  rw [totalExponent_eq some same, totalExponent, Format.targetExponent, minimum, bits]
  rcases normal with normal | minimal
  · have lower : 52 ≤ S.log2 := (Nat.le_log2 some.ne').2 normal
    omega
  · omega

/-- A value that is that of a float is rounded to this float. -/
theorem round_exact (scaled : IsScaled S E) (sign : UnpackedFloat.Sign) :
    UnpackedFloat.round .binary64 sign m e = .finite sign S E some := by
  have target := targetExponent_eq some same scaled
  -- First the exponent is made no greater than that of the float.
  have aligned := (decreaseExponent_value m e E).trans same
  have first : UnpackedFloat.shiftToTargetExponent .binary64 (UnpackedFloat.decreaseExponent m e E).1
      (UnpackedFloat.decreaseExponent m e E).2 .exact = (⟨S, false, false⟩, E) := by
    rw [UnpackedFloat.shiftToTargetExponent, targetExponent_eq some aligned scaled]
    exact shiftToExponent_exact (decreaseExponent_le m e E) aligned
  -- Then nothing is dropped, and there is nothing left to shift.
  have second : UnpackedFloat.shiftToTargetExponent .binary64 S E .exact =
      (⟨S, false, false⟩, E) := by
    rw [UnpackedFloat.shiftToTargetExponent, targetExponent_eq some rfl scaled]
    exact shiftToExponent_exact le_rfl rfl
  have rounded : UnpackedFloat.ExtendedMantissa.roundedMantissa ⟨S, false, false⟩ = S := rfl
  rw [UnpackedFloat.round, target]
  dsimp only
  rw [UnpackedFloat.roundWithAccuracy, first]
  dsimp only
  simp only [rounded, second]
  exact dif_neg some.ne'

end

/-! ## Sums -/

/-- A float is put together again from its parts. -/
theorem pack_unpacked {x : Float} {b : Binary} (finite : Binary.ofFloat? x = .some b) :
    Float.ofModel (pack b.unpacked) = x := by
  rw [← unpack_of_float finite]
  exact ofBits_toBits x

theorem apply_mul (negative : Bool) (k : ℕ) (e : ℤ) :
    (((signOf negative).apply k : ℤ) : ℚ) * 2 ^ e = Binary.value ⟨negative, k, e⟩ := by
  cases negative with
  | true => simp [Binary.value, signOf, UnpackedFloat.Sign.apply]
  | false => simp [Binary.value, signOf, UnpackedFloat.Sign.apply]

/-- A scaled integer whose value is that of a float is rounded to this float. -/
theorem normalize_exact {b : Binary} (canonical : b.Canonical) (some : 0 < b.significand)
    {m e : ℤ} (same : (m : ℚ) * 2 ^ e = b.value) (sign : UnpackedFloat.Sign) :
    UnpackedFloat.normalize .binary64 m e sign = b.unpacked := by
  obtain ⟨negative, S, E⟩ := b
  have positive : (0 : ℚ) < S * 2 ^ E := by
    have s0 : 0 < S := some
    positivity
  have power : (0 : ℚ) < 2 ^ e := by positivity
  rw [Binary.unpacked_of_pos negative some rfl rfl, UnpackedFloat.normalize]
  cases negative with
  | true =>
    have value : (m : ℚ) * 2 ^ e = -(S * 2 ^ E) := by simpa [Binary.value] using same
    have less : m < 0 := by
      have below : (m : ℚ) < 0 := by
        by_contra nonnegative
        have above := mul_nonneg (not_lt.1 nonnegative) power.le
        linarith
      exact_mod_cast below
    have size : (((-m).toNat : ℕ) : ℚ) = -m := by
      have integer : ((-m).toNat : ℤ) = -m := Int.toNat_of_nonneg (by omega)
      exact_mod_cast congrArg (Int.cast : ℤ → ℚ) integer
    rw [compare_lt_iff_lt.2 less]
    refine round_exact some ?_ canonical.scaled .negative
    rw [size, neg_mul, value, neg_neg]
  | false =>
    have value : (m : ℚ) * 2 ^ e = S * 2 ^ E := by simpa [Binary.value] using same
    have more : 0 < m := by
      have above : (0 : ℚ) < m := (mul_pos_iff_of_pos_right power).1 (value ▸ positive)
      exact_mod_cast above
    have size : ((m.toNat : ℕ) : ℚ) = m := by
      have integer : (m.toNat : ℤ) = m := Int.toNat_of_nonneg more.le
      exact_mod_cast congrArg (Int.cast : ℤ → ℚ) integer
    rw [compare_gt_iff_gt.2 more]
    refine round_exact some ?_ canonical.scaled .positive
    rw [size, value]

/-- Floats with the same value other than zero have the same parts. -/
theorem Binary.unpacked_congr {b c : Binary} (left : b.Canonical) (right : c.Canonical)
    (same : b.value = c.value) (nonzero : c.value ≠ 0) : b.unpacked = c.unpacked := by
  have value := apply_mul b.negative b.significand b.exponent
  rw [← normalize_exact left (Binary.significand_pos (same ▸ nonzero)) value .positive,
    normalize_exact right (Binary.significand_pos nonzero) (value.trans same) .positive]

/-- Aligned to a lesser exponent, a signed significand keeps its value. -/
theorem apply_decreaseExponent (b : Binary) {e : ℤ} (le : e ≤ b.exponent) :
    (((signOf b.negative).apply
      (UnpackedFloat.decreaseExponent b.significand b.exponent e).1 : ℤ) : ℚ) * 2 ^ e = b.value := by
  have aligned := decreaseExponent_value b.significand b.exponent e
  have exponent : (UnpackedFloat.decreaseExponent b.significand b.exponent e).2 = e := by
    rw [UnpackedFloat.decreaseExponent]
    omega
  rw [exponent] at aligned
  rw [apply_mul, Binary.value, Binary.value, aligned]

/-- A sum of floats that is the value of a float other than zero is this float. -/
theorem add_exact {x y z : Float} {r t : ℚ} (left : value? x = some r) (right : value? y = some t)
    (sum : value? z = some (r + t)) (nonzero : r + t ≠ 0) : x + y = z := by
  obtain ⟨a, finiteLeft, canonicalLeft, rfl⟩ := exists_of_exact left
  obtain ⟨b, finiteRight, canonicalRight, rfl⟩ := exists_of_exact right
  obtain ⟨c, finiteSum, canonicalSum, value⟩ := exists_of_exact sum
  have some : 0 < c.significand := Binary.significand_pos (by rwa [value])
  suffices same : UnpackedFloat.add .binary64 a.unpacked b.unpacked = c.unpacked by
    rw [← unpack_of_float finiteLeft, ← unpack_of_float finiteRight] at same
    rw [← pack_unpacked finiteSum, ← same]
    rfl
  by_cases leftZero : a.significand = 0
  · have none : a.value = 0 := a.value_eq_zero_iff.2 leftZero
    rw [none, zero_add] at value nonzero
    have positive := Binary.significand_pos nonzero
    have kept : b.unpacked = c.unpacked :=
      Binary.unpacked_congr canonicalRight canonicalSum value.symm (by rwa [value])
    rw [← kept, Binary.unpacked_of_zero a.negative a.exponent leftZero,
      Binary.unpacked_of_pos b.negative positive rfl rfl]
    rfl
  · have positiveLeft : 0 < a.significand := Nat.pos_of_ne_zero leftZero
    by_cases rightZero : b.significand = 0
    · have none : b.value = 0 := b.value_eq_zero_iff.2 rightZero
      rw [none, add_zero] at value nonzero
      have kept : a.unpacked = c.unpacked :=
        Binary.unpacked_congr canonicalLeft canonicalSum value.symm (by rwa [value])
      rw [← kept, Binary.unpacked_of_zero b.negative b.exponent rightZero,
        Binary.unpacked_of_pos a.negative positiveLeft rfl rfl]
      rfl
    · rw [Binary.unpacked_of_pos a.negative positiveLeft rfl rfl,
        Binary.unpacked_of_pos b.negative (Nat.pos_of_ne_zero rightZero) rfl rfl]
      refine normalize_exact canonicalSum some ?_ .positive
      rw [Int.cast_add, add_mul, value]
      exact congrArg₂ (· + ·) (apply_decreaseExponent a (min_le_left _ _))
        (apply_decreaseExponent b (min_le_right _ _))

/-! ## Comparisons with zero -/

theorem unpack_zero : (0 : Float).toModel.unpack = .zero .positive := by rfl

/-- How a finite float compares with zero. -/
theorem compare_zero (b : Binary) :
    b.unpacked.compare (.zero .positive) = some (compare b.value 0) := by
  obtain ⟨negative, s, e⟩ := b
  by_cases none : s = 0
  · have value : Binary.value ⟨negative, s, e⟩ = 0 := (Binary.value_eq_zero_iff _).2 none
    rw [Binary.unpacked_of_zero negative e none, value, compare_eq_iff_eq.2 rfl]
    rfl
  · have some : 0 < s := Nat.pos_of_ne_zero none
    have positive : (0 : ℚ) < s * 2 ^ e := by positivity
    rw [Binary.unpacked_of_pos negative some rfl rfl]
    cases negative with
    | true =>
      have less : Binary.value ⟨true, s, e⟩ < 0 := by
        simpa [Binary.value] using positive
      rw [compare_lt_iff_lt.2 less]
      rfl
    | false =>
      have more : 0 < Binary.value ⟨false, s, e⟩ := by
        simpa [Binary.value] using positive
      rw [compare_gt_iff_gt.2 more]
      rfl

section

variable {x : Float} {r : ℚ} (exact : value? x = some r)
include exact

/-- A float is less than zero exactly if its value is. -/
theorem lt_zero_iff : x < 0 ↔ r < 0 := by
  obtain ⟨b, finite, -, rfl⟩ := exists_of_exact exact
  have less : x < 0 ↔ (x.toModel.unpack.compare (0 : Float).toModel.unpack == some .lt) = true :=
    decide_eq_true_iff
  rw [less, unpack_zero, unpack_of_float finite, compare_zero, beq_iff_eq, Option.some_inj,
    compare_lt_iff_lt]

/-- A float compares equal to zero exactly if its value is zero, under either sign. -/
theorem beq_zero_iff : (x == 0) = true ↔ r = 0 := by
  obtain ⟨b, finite, -, rfl⟩ := exists_of_exact exact
  have equal : (x == 0) = (x.toModel.unpack.compare (0 : Float).toModel.unpack == some .eq) := rfl
  rw [equal, unpack_zero, unpack_of_float finite, compare_zero, beq_iff_eq, Option.some_inj,
    compare_eq_iff_eq]

end

/-! ## Words -/

/-- The natural number that is the value of a float is what is left without its fraction. -/
theorem toInt_unpacked {b : Binary} {k : ℕ} (value : b.value = k) (least greatest : ℤ) :
    b.unpacked.toInt least greatest = k := by
  obtain ⟨negative, s, e⟩ := b
  by_cases none : s = 0
  · have zero : (k : ℚ) = 0 := value ▸ (Binary.value_eq_zero_iff _).2 none
    rw [Binary.unpacked_of_zero negative e none, Nat.cast_eq_zero.1 zero]
    rfl
  · have some : 0 < s := Nat.pos_of_ne_zero none
    have positive : (0 : ℚ) < s * 2 ^ e := by positivity
    rw [Binary.unpacked_of_pos negative some rfl rfl]
    cases negative with
    | true =>
      have opposite : -((s : ℚ) * 2 ^ e) = k := by simpa [Binary.value] using value
      have nonnegative : (0 : ℚ) ≤ k := Nat.cast_nonneg k
      linarith
    | false =>
      have same : (s : ℚ) * 2 ^ e = k * 2 ^ (0 : ℤ) := by simpa [Binary.value] using value
      have shifted := shiftToExponent_exact (decreaseExponent_le s e 0)
        ((decreaseExponent_value s e 0).trans same)
      change UnpackedFloat.roundToInt .positive s e = k
      rw [UnpackedFloat.roundToInt]
      dsimp only
      rw [shifted]
      rfl

/-- A natural number that is the value of a float is turned into a word as it is, and clamped
    only if it is too great for one. -/
theorem toUInt32_exact {x : Float} {k : ℕ} (exact : value? x = some (k : ℚ)) :
    x.toUInt32 = UInt32.ofNatClamp k := by
  obtain ⟨b, finite, -, value⟩ := exists_of_exact exact
  change UInt32.ofNatClamp (x.toModel.unpack.toInt 0 (UInt32.size - 1)).toNat = _
  rw [unpack_of_float finite, toInt_unpacked value, Int.toNat_natCast]

/-! ## Remainders -/

/-- A sign bit as a factor. -/
theorem exists_sign (negative : Bool) :
    ∃ σ : ℤ, σ * σ = 1 ∧ ∀ s e, Binary.value ⟨negative, s, e⟩ = σ * (s * 2 ^ e) := by
  cases negative with
  | true => exact ⟨-1, by decide, fun s e => by simp [Binary.value]⟩
  | false => exact ⟨1, by decide, fun s e => by simp [Binary.value]⟩

theorem abs_value (b : Binary) : |b.value| = b.significand * 2 ^ b.exponent := by
  have nonnegative : (0 : ℚ) ≤ b.significand * 2 ^ b.exponent := by positivity
  obtain ⟨negative, s, e⟩ := b
  cases negative with
  | true => simp [Binary.value]
  | false => simp [Binary.value]

/-- A significand aligned to a lesser exponent. -/
theorem aligned_value (s : ℕ) {e scale : ℤ} (le : scale ≤ e) :
    ((s * 2 ^ (e - scale).toNat : ℕ) : ℚ) * 2 ^ scale = s * 2 ^ e := by
  have exponent : (e - scale).toNat = e - scale := Int.toNat_of_nonneg (by omega)
  rw [Nat.cast_mul, Nat.cast_pow, Nat.cast_ofNat, mul_assoc, ← zpow_natCast,
    ← zpow_add₀ (by norm_num), exponent, sub_add_cancel]

/-- The remainder of a division toward zero is exact: it is less than the divisor, has the sign
    of the dividend and differs from it by a multiple of the divisor. -/
theorem remainder_exact {x y : Float} {r t : ℚ} (dividend : value? x = some r)
    (divisor : value? y = some t) (nonzero : t ≠ 0) :
    ∃ (q : ℤ) (left : ℚ), value? (remainder x y) = some left ∧ left = r - q * |t| ∧ |left| < |t| ∧
      0 ≤ r * left := by
  obtain ⟨a, finite, canonical, rfl⟩ := exists_of_exact dividend
  obtain ⟨b, finite', canonical', rfl⟩ := exists_of_exact divisor
  obtain ⟨⟨short, least, -⟩, below⟩ := canonical
  obtain ⟨⟨short', least', -⟩, below'⟩ := canonical'
  obtain ⟨negative, s, e⟩ := a
  obtain ⟨negative', s', e'⟩ := b
  dsimp only at short least below short' least' below'
  have some : s' ≠ 0 := (Binary.significand_pos nonzero).ne'
  obtain ⟨scale, lesser⟩ : ∃ scale, scale = min e e' := ⟨_, rfl⟩
  obtain ⟨n, dividend⟩ : ∃ n, n = s * 2 ^ (e - scale).toNat := ⟨_, rfl⟩
  obtain ⟨d, divisor⟩ : ∃ d, d = s' * 2 ^ (e' - scale).toNat := ⟨_, rfl⟩
  have positive : 0 < d := by rw [divisor]; positivity
  -- One of the two significands is not moved, and the remainder is no greater than it.
  have fits : n % d < 2 ^ 53 := by
    have less := Nat.mod_lt n positive
    rcases min_choice e e' with first | second
    · have same : n = s := by
        rw [dividend, lesser, first, sub_self]
        simp
      exact (Nat.mod_le n d).trans_lt (same ▸ short)
    · have same : d = s' := by
        rw [divisor, lesser, second, sub_self]
        simp
      exact less.trans (same ▸ short')
  have exact := value?_toFloat (b := ⟨negative, n % d, scale⟩) fits (by dsimp only; omega)
    (by dsimp only; omega)
  obtain ⟨σ, square, value⟩ := exists_sign negative
  have numerator := aligned_value s (show scale ≤ e by omega)
  have denominator := aligned_value s' (show scale ≤ e' by omega)
  rw [← dividend] at numerator
  rw [← divisor] at denominator
  obtain ⟨k, split⟩ : ∃ k : ℕ, (n : ℚ) = d * k + (n % d : ℕ) :=
    ⟨n / d, by exact_mod_cast (Nat.div_add_mod n d).symm⟩
  have result : remainder x y = Binary.toFloat ⟨negative, n % d, scale⟩ := by
    rw [remainder, finite, finite']
    dsimp only
    rw [if_neg some, ← lesser, dividend, divisor]
  have scaled : (0 : ℚ) < 2 ^ scale := by positivity
  have size : |Binary.value ⟨negative', s', e'⟩| = d * 2 ^ scale := by
    rw [abs_value, denominator]
  refine ⟨σ * k, _, result ▸ exact, ?_, ?_, ?_⟩
  · rw [size, value, value, ← numerator, split]
    push_cast
    ring
  · rw [size, abs_value]
    have less : ((n % d : ℕ) : ℚ) < d := by exact_mod_cast Nat.mod_lt n positive
    gcongr
  · have same : (σ : ℚ) * σ = 1 := by exact_mod_cast square
    rw [value, value, ← numerator]
    calc (0 : ℚ) ≤ (n * 2 ^ scale) * ((n % d : ℕ) * 2 ^ scale) := by positivity
      _ = σ * (n * 2 ^ scale) * (σ * ((n % d : ℕ) * 2 ^ scale)) := by
        rw [mul_mul_mul_comm (σ : ℚ), same, one_mul]

end Calculator.Number
