import Calculator.Number.Binary
import Mathlib

/-!
# The nearest float

Rounding depends on the exact value of a ratio alone, not on its two naturals, and the
value of finite magnitude bits is rounded to exactly these bits.
-/
namespace Calculator.Number

/-! ## Powers and logarithms -/

/-- A power with any integer exponent as a ratio of naturals. -/
theorem zpow_eq_div {b : ℕ} (base : 1 < b) (k : ℤ) :
    (b : ℚ) ^ k = (b ^ k.toNat : ℕ) / (b ^ (-k).toNat : ℕ) := by
  have nonzero : (b : ℚ) ≠ 0 := by positivity
  have split : k = (k.toNat : ℤ) - ((-k).toNat : ℤ) := by omega
  rw [Nat.cast_pow, Nat.cast_pow, ← zpow_natCast, ← zpow_natCast, ← zpow_sub₀ nonzero, ← split]

/-- A logarithm is given by the powers around its argument. -/
theorem log_eq {b : ℕ} (base : 1 < b) {r : ℚ} {k : ℤ} (least : (b : ℚ) ^ k ≤ r)
    (below : r < (b : ℚ) ^ (k + 1)) : Int.log b r = k := by
  have positive : 0 < r := lt_of_lt_of_le (zpow_pos (by positivity) k) least
  have lower := (Int.zpow_le_iff_le_log base positive).1 least
  have upper := (Int.lt_zpow_iff_log_lt base positive).1 below
  omega

theorem log2_bounds {n : ℕ} (some : 0 < n) :
    (2 : ℚ) ^ (n.log2 : ℤ) ≤ n ∧ (n : ℚ) < 2 ^ ((n.log2 : ℤ) + 1) := by
  constructor
  · rw [zpow_natCast]
    exact_mod_cast Nat.log2_self_le some.ne'
  · rw [show (n.log2 : ℤ) + 1 = ((n.log2 + 1 : ℕ) : ℤ) by omega, zpow_natCast]
    exact_mod_cast Nat.lt_log2_self

theorem ratio_eq {b : ℕ} (base : 1 < b) (n : ℕ) (k : ℤ) :
    ((n * b ^ k.toNat : ℕ) : ℚ) / (b ^ (-k).toNat : ℕ) = n * (b : ℚ) ^ k := by
  rw [zpow_eq_div base, Nat.cast_mul, mul_div_assoc]

theorem ratio_lt_iff {b n d : ℕ} (base : 1 < b) (positive : 0 < d) (k : ℤ) :
    (n : ℚ) / d < (b : ℚ) ^ k ↔ n * b ^ (-k).toNat < d * b ^ k.toNat := by
  have d0 : (0 : ℚ) < d := by exact_mod_cast positive
  have power : (0 : ℚ) < (b ^ (-k).toNat : ℕ) := by positivity
  rw [zpow_eq_div base, div_lt_div_iff₀ d0 power, mul_comm ((b ^ k.toNat : ℕ) : ℚ)]
  exact_mod_cast Iff.rfl

/-- The exponent of a ratio is exactly its binary logarithm. -/
theorem floorLog2_eq {n d : ℕ} (some : 0 < n) (positive : 0 < d) :
    floorLog2 n d = Int.log 2 ((n : ℚ) / d) := by
  have two : (2 : ℚ) ≠ 0 := by norm_num
  have d0 : (0 : ℚ) < d := by exact_mod_cast positive
  obtain ⟨nLeast, nBelow⟩ := log2_bounds some
  obtain ⟨dLeast, dBelow⟩ := log2_bounds positive
  symm
  rw [floorLog2]
  split
  · rename_i smaller
    rw [← ratio_lt_iff (by norm_num) positive, Nat.cast_ofNat] at smaller
    refine log_eq (by norm_num) ?_ ?_
    · rw [Nat.cast_ofNat, le_div_iff₀ d0]
      calc (2 : ℚ) ^ ((n.log2 : ℤ) - d.log2 - 1) * d
          ≤ 2 ^ ((n.log2 : ℤ) - d.log2 - 1) * 2 ^ ((d.log2 : ℤ) + 1) := by gcongr
        _ = 2 ^ (n.log2 : ℤ) := by
          rw [← zpow_add₀ two]
          congr 1
          ring
        _ ≤ n := nLeast
    · rwa [Nat.cast_ofNat, sub_add_cancel]
  · rename_i larger
    rw [← ratio_lt_iff (by norm_num) positive, Nat.cast_ofNat, not_lt] at larger
    refine log_eq (by norm_num) ?_ ?_
    · rwa [Nat.cast_ofNat]
    · rw [Nat.cast_ofNat, div_lt_iff₀ d0]
      calc (n : ℚ) < 2 ^ ((n.log2 : ℤ) + 1) := nBelow
        _ = 2 ^ ((n.log2 : ℤ) - d.log2 + 1) * 2 ^ (d.log2 : ℤ) := by
          rw [← zpow_add₀ two]
          congr 1
          ring
        _ ≤ 2 ^ ((n.log2 : ℤ) - d.log2 + 1) * d := by gcongr

/-! ## Rounding depends on the value alone -/

theorem roundDiv_mul {n d k : ℕ} (positive : 0 < k) :
    roundDiv (n * k) (d * k) = roundDiv n d := by
  have quotient : n * k / (d * k) = n / d := Nat.mul_div_mul_right n d positive
  have less : 2 * (n * k % (d * k)) < d * k ↔ 2 * (n % d) < d := by
    rw [Nat.mul_mod_mul_right, ← Nat.mul_assoc, Nat.mul_lt_mul_right positive]
  have half : 2 * (n * k % (d * k)) = d * k ↔ 2 * (n % d) = d := by
    rw [Nat.mul_mod_mul_right, ← Nat.mul_assoc, Nat.mul_left_inj positive.ne']
  simp only [roundDiv, quotient, less, half]

theorem roundDiv_exact {n d : ℕ} (positive : 0 < d) : roundDiv (n * d) d = n := by
  have quotient : n * d / d = n := Nat.mul_div_cancel n positive
  have rest : n * d % d = 0 := Nat.mul_mod_left n d
  have close : 2 * 0 < d ∨ (2 * 0 = d ∧ n % 2 = 0) := .inl (by omega)
  simp only [roundDiv, quotient, rest]
  rw [if_pos close]

/-- Rounding ends at infinity. -/
theorem nearestMagnitude_le (n d : ℕ) : nearestMagnitude n d ≤ infinityBits := by
  rw [nearestMagnitude]
  split
  · exact Nat.zero_le _
  · exact min_le_right _ _

/-- A common factor does not change the nearest float. -/
theorem nearestMagnitude_mul {n d k : ℕ} (positive : 0 < d) (factor : 0 < k) :
    nearestMagnitude (n * k) (d * k) = nearestMagnitude n d := by
  by_cases none : n = 0
  · simp [nearestMagnitude, none]
  · have some : 0 < n := Nat.pos_of_ne_zero none
    have k0 : (k : ℚ) ≠ 0 := by positivity
    have scale : floorLog2 (n * k) (d * k) = floorLog2 n d := by
      rw [floorLog2_eq (by positivity) (by positivity), floorLog2_eq some positive, Nat.cast_mul,
        Nat.cast_mul, mul_div_mul_right _ _ k0]
    have other : n * k ≠ 0 := by positivity
    simp only [nearestMagnitude, if_neg none, if_neg other, scale, Nat.mul_right_comm _ k,
      roundDiv_mul factor]

/-- Equal ratios have the same nearest float. -/
theorem nearestMagnitude_congr {n d m e : ℕ} (positive : 0 < d) (other : 0 < e)
    (same : n * e = m * d) : nearestMagnitude n d = nearestMagnitude m e := by
  rw [← nearestMagnitude_mul positive other, same, Nat.mul_comm d e,
    nearestMagnitude_mul other positive]

/-! ## Rounding exact values -/

/-- Significands and exponents of finite floats: those below the normal ones share
    the least exponent. -/
def IsScaled (significand : ℕ) (exponent : ℤ) : Prop :=
  significand < 2 ^ 53 ∧ -1074 ≤ exponent ∧ (2 ^ 52 ≤ significand ∨ exponent = -1074)

/-- The exponent of an exact value is that of its significand, scaled. -/
theorem floorLog2_scaled {s : ℕ} (e : ℤ) (some : 0 < s) :
    floorLog2 (s * 2 ^ e.toNat) (2 ^ (-e).toNat) = s.log2 + e := by
  have two : (2 : ℚ) ≠ 0 := by norm_num
  obtain ⟨least, below⟩ := log2_bounds some
  rw [floorLog2_eq (by positivity) (by positivity), ratio_eq (by norm_num), Nat.cast_ofNat]
  refine log_eq (by norm_num) ?_ ?_
  · rw [Nat.cast_ofNat, zpow_add₀ two]
    gcongr
  · rw [Nat.cast_ofNat, add_right_comm, zpow_add₀ two]
    gcongr

/-- An exact value is rounded to the bits of its significand and exponent. -/
theorem nearestMagnitude_scaled {s : ℕ} {e : ℤ} (some : 0 < s) (scaled : IsScaled s e) :
    nearestMagnitude (s * 2 ^ e.toNat) (2 ^ (-e).toNat) =
      min ((e + 1074).toNat * 2 ^ 52 + s) infinityBits := by
  obtain ⟨fits, least, normal⟩ := scaled
  have nonzero : s * 2 ^ e.toNat ≠ 0 := by positivity
  have upper : s.log2 < 53 := (Nat.log2_lt some.ne').2 fits
  have exponent : max (-1074) ((s.log2 : ℤ) + e - 52) = e := by
    rcases normal with normal | minimal
    · have lower : 52 ≤ s.log2 := (Nat.le_log2 some.ne').2 normal
      omega
    · omega
  have exact : roundDiv (s * 2 ^ e.toNat * 2 ^ (-e).toNat) (2 ^ (-e).toNat * 2 ^ e.toNat) = s := by
    rw [Nat.mul_assoc, Nat.mul_comm (2 ^ e.toNat)]
    exact roundDiv_exact (by positivity)
  rw [nearestMagnitude, if_neg nonzero]
  simp only [floorLog2_scaled e some, exponent, exact]

theorem isScaled_of_bits {m : ℕ} (finite : m < infinityBits) :
    IsScaled (significandOf m) (exponentOf m) := by
  rw [infinityBits] at finite
  unfold IsScaled significandOf exponentOf
  split
  · omega
  · omega

theorem significandOf_eq_zero_iff {m : ℕ} : significandOf m = 0 ↔ m = 0 := by
  unfold significandOf
  split
  · exact Iff.rfl
  · omega

/-- The exact value of finite magnitude bits is rounded to these bits. -/
theorem nearestMagnitude_of_bits {m : ℕ} (finite : m < infinityBits) :
    nearestMagnitude (significandOf m * 2 ^ (exponentOf m).toNat) (2 ^ (-exponentOf m).toNat) =
      m := by
  by_cases none : m = 0
  · rw [significandOf_eq_zero_iff.2 none, none, Nat.zero_mul]
    rfl
  · have some : 0 < significandOf m := Nat.pos_of_ne_zero (mt significandOf_eq_zero_iff.1 none)
    rw [nearestMagnitude_scaled some (isScaled_of_bits finite)]
    have bits : (exponentOf m + 1074).toNat * 2 ^ 52 + significandOf m = m := by
      unfold significandOf exponentOf
      split
      · omega
      · omega
    rw [bits, Nat.min_eq_left finite.le]

end Calculator.Number
