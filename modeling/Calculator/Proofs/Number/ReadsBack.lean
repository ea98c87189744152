import Calculator.Number.Shortest
import Calculator.Proofs.Number.Bits
import Calculator.Proofs.Number.Nearest

/-!
# Decimal numbers of floats

Reading depends on the exact value of a decimal number alone. The shortest decimal
number of a float reads back as this float: of the candidates only one that reads back
is taken, and the exact value, which stands behind them, always does.
-/
namespace Calculator.Number

namespace Decimal

/-! ## The value alone -/

/-- The exact magnitude of a decimal number. -/
def value (d : Decimal) : ℚ := d.coefficient * 10 ^ d.exponent

theorem value_eq_zero_iff {d : Decimal} : d.value = 0 ↔ d.coefficient = 0 := by
  have power : (10 : ℚ) ^ d.exponent ≠ 0 := by positivity
  simp [value, power]

/-- The position of the leading digit is exactly the logarithm of the value. -/
theorem position_eq {d : Decimal} (some : d.coefficient ≠ 0) :
    d.position = Int.log 10 d.value + 1 := by
  have ten : (10 : ℚ) ≠ 0 := by norm_num
  have digits : 0 < digitCount d.coefficient := Nat.length_toDigits_pos
  have below : d.coefficient < 10 ^ digitCount d.coefficient :=
    (Nat.length_toDigits_le_iff (by norm_num) digits).1 le_rfl
  have least : 10 ^ (digitCount d.coefficient - 1) ≤ d.coefficient := by
    by_cases single : digitCount d.coefficient = 1
    · rw [single]
      exact Nat.pos_of_ne_zero some
    · by_contra less
      have shorter := (Nat.length_toDigits_le_iff (b := 10) (by norm_num)
        (by omega : 0 < digitCount d.coefficient - 1)).2 (not_le.1 less)
      change digitCount d.coefficient ≤ _ at shorter
      omega
  have log : Int.log 10 d.value = d.position - 1 := by
    refine log_eq (by norm_num) ?_ ?_
    · have split : d.position - 1 = ((digitCount d.coefficient - 1 : ℕ) : ℤ) + d.exponent := by
        rw [position]
        omega
      rw [Nat.cast_ofNat, split, zpow_add₀ ten, zpow_natCast, value]
      gcongr
      exact_mod_cast least
    · rw [Nat.cast_ofNat, sub_add_cancel, position, zpow_add₀ ten, zpow_natCast, value]
      gcongr
      exact_mod_cast below
  omega

/-- The value as a ratio of naturals. -/
theorem value_eq_div (d : Decimal) :
    d.value = (d.coefficient * 10 ^ d.exponent.toNat : ℕ) / (10 ^ (-d.exponent).toNat : ℕ) := by
  rw [ratio_eq (by norm_num), value, Nat.cast_ofNat]

theorem nearestMagnitude_of_value {d : Decimal} {n e : ℕ} (positive : 0 < e)
    (same : d.value = (n : ℚ) / e) :
    nearestMagnitude (d.coefficient * 10 ^ d.exponent.toNat) (10 ^ (-d.exponent).toNat) =
      nearestMagnitude n e := by
  refine nearestMagnitude_congr (by positivity) positive ?_
  rw [value_eq_div, div_eq_div_iff (by positivity) (by positivity)] at same
  exact_mod_cast same

/-- Reading depends on the exact value alone. -/
theorem magnitude_congr {d e : Decimal} (same : d.value = e.value) : d.magnitude = e.magnitude := by
  have zero : d.coefficient = 0 ↔ e.coefficient = 0 := by
    rw [← value_eq_zero_iff, same, value_eq_zero_iff]
  by_cases none : d.coefficient = 0
  · rw [magnitude, magnitude, if_pos (.inl none), if_pos (.inl (zero.1 none))]
  · have position : d.position = e.position := by
      rw [position_eq none, position_eq (mt zero.2 none), same]
    have nearest := nearestMagnitude_of_value (by positivity) (same.trans (value_eq_div e))
    simp only [magnitude, zero, position, nearest]

theorem magnitude_le (d : Decimal) : d.magnitude ≤ infinityBits := by
  rw [magnitude]
  split
  · exact Nat.zero_le _
  · split
    · exact le_rfl
    · exact nearestMagnitude_le _ _

/-- A value that is neither too small nor too great is read as the nearest float. -/
theorem magnitude_of_value {d : Decimal} {n e : ℕ} (positive : 0 < e)
    (same : d.value = (n : ℚ) / e) (least : (10 : ℚ) ^ (-324 : ℤ) ≤ d.value)
    (below : d.value < 10 ^ (309 : ℤ)) : d.magnitude = nearestMagnitude n e := by
  have some : 0 < d.value := lt_of_lt_of_le (by positivity) least
  have nonzero : d.coefficient ≠ 0 := mt value_eq_zero_iff.2 some.ne'
  have lower : -324 ≤ Int.log 10 d.value := (Int.zpow_le_iff_le_log (by norm_num) some).1 least
  have upper : Int.log 10 d.value < 309 := (Int.lt_zpow_iff_log_lt (by norm_num) some).1 below
  have position := position_eq nonzero
  have notSmall : ¬ (d.coefficient = 0 ∨ d.position < leastPosition) := by
    rw [leastPosition]
    omega
  have notLarge : ¬ greatestPosition < d.position := by
    rw [greatestPosition]
    omega
  rw [magnitude, if_neg notSmall, if_neg notLarge, nearestMagnitude_of_value positive same]

end Decimal

namespace Shortest

/-! ## The candidates -/

/-- A candidate reads back and keeps the sign. -/
theorem ofCount?_readsBack {negative : Bool} {bits n d : ℕ} {top : ℤ} {count : ℕ} {found : Decimal}
    (taken : ofCount? negative bits n d top count = some found) :
    found.negative = negative ∧ found.magnitude = bits := by
  rw [ofCount?] at taken
  split at taken
  · rename_i readsBelow readsAbove
    split at taken
    · cases taken
      exact ⟨rfl, of_decide_eq_true readsBelow⟩
    · cases taken
      refine ⟨?_, of_decide_eq_true readsAbove⟩
      split <;> rfl
  · rename_i readsBelow _
    cases taken
    exact ⟨rfl, of_decide_eq_true readsBelow⟩
  · rename_i _ readsAbove
    cases taken
    refine ⟨?_, of_decide_eq_true readsAbove⟩
    split <;> rfl
  · exact nomatch taken

/-! ## The exact value -/

theorem exact_value (negative : Bool) (n places : ℕ) :
    (exact negative n places).value = (n : ℚ) / (2 ^ places : ℕ) := by
  have ten : (10 : ℚ) ^ places = 2 ^ places * 5 ^ places := by
    rw [← mul_pow]
    norm_num
  have five : (5 : ℚ) ^ places ≠ 0 := by positivity
  have two : (2 : ℚ) ^ places ≠ 0 := by positivity
  simp only [Decimal.value, exact, zpow_neg, zpow_natCast, ten]
  push_cast
  field_simp

theorem le_two_zpow {k : ℤ} (least : -1074 ≤ k) : (10 : ℚ) ^ (-324 : ℤ) ≤ 2 ^ k := by
  have part : (10 : ℚ) ^ (-54 : ℤ) ≤ 2 ^ (-179 : ℤ) := by norm_num
  calc (10 : ℚ) ^ (-324 : ℤ) = (10 ^ (-54 : ℤ)) ^ (6 : ℤ) := by
        rw [← zpow_mul]
        rfl
    _ ≤ (2 ^ (-179 : ℤ)) ^ (6 : ℤ) := zpow_le_zpow_left₀ (by norm_num) (by positivity) part
    _ = 2 ^ (-1074 : ℤ) := by
      rw [← zpow_mul]
      rfl
    _ ≤ 2 ^ k := zpow_le_zpow_right₀ (by norm_num) least

theorem two_zpow_lt {k : ℤ} (greatest : k ≤ 971) : (2 : ℚ) ^ 53 * 2 ^ k < 10 ^ (309 : ℤ) := by
  have part : (2 : ℚ) ^ (93 : ℤ) ≤ 10 ^ (28 : ℤ) := by norm_num
  have rest : (2 : ℚ) ^ 53 * 2 ^ (41 : ℤ) < 10 ^ (29 : ℤ) := by norm_num
  calc (2 : ℚ) ^ 53 * 2 ^ k ≤ 2 ^ 53 * 2 ^ (971 : ℤ) := by gcongr
    _ = (2 ^ 53 * 2 ^ (41 : ℤ)) * (2 ^ (93 : ℤ)) ^ (10 : ℤ) := by
      rw [mul_assoc, ← zpow_mul, ← zpow_add₀ (by norm_num)]
      rfl
    _ ≤ (2 ^ 53 * 2 ^ (41 : ℤ)) * (10 ^ (28 : ℤ)) ^ (10 : ℤ) := by
      gcongr
      exact zpow_le_zpow_left₀ (by norm_num) (by positivity) part
    _ < 10 ^ (29 : ℤ) * (10 ^ (28 : ℤ)) ^ (10 : ℤ) := by gcongr
    _ = 10 ^ (309 : ℤ) := by
      rw [← zpow_mul, ← zpow_add₀ (by norm_num)]
      rfl

/-- Finite floats other than zero stay within the positions that are read exactly. -/
theorem value_bounds {m : ℕ} (some : m ≠ 0) (finite : m < infinityBits) :
    (10 : ℚ) ^ (-324 : ℤ) ≤ significandOf m * 2 ^ exponentOf m ∧
      (significandOf m : ℚ) * 2 ^ exponentOf m < 10 ^ (309 : ℤ) := by
  obtain ⟨fits, least, -⟩ := isScaled_of_bits finite
  have positive : 1 ≤ significandOf m := Nat.pos_of_ne_zero (mt significandOf_eq_zero_iff.1 some)
  have greatest : exponentOf m ≤ 971 := by
    rw [infinityBits] at finite
    unfold exponentOf
    split
    · omega
    · omega
  have two : (0 : ℚ) < 2 ^ exponentOf m := by positivity
  constructor
  · calc (10 : ℚ) ^ (-324 : ℤ) ≤ 2 ^ exponentOf m := le_two_zpow least
      _ = ((1 : ℕ) : ℚ) * 2 ^ exponentOf m := by rw [Nat.cast_one, one_mul]
      _ ≤ significandOf m * 2 ^ exponentOf m := by gcongr
  · calc (significandOf m : ℚ) * 2 ^ exponentOf m ≤ ((2 ^ 53 : ℕ) : ℚ) * 2 ^ exponentOf m := by
          gcongr
      _ = 2 ^ 53 * 2 ^ exponentOf m := by rw [Nat.cast_pow, Nat.cast_ofNat]
      _ < 10 ^ (309 : ℤ) := two_zpow_lt greatest

/-- The exact value of a finite float reads back. -/
theorem exact_readsBack (negative : Bool) {m : ℕ} (some : m ≠ 0) (finite : m < infinityBits) :
    (exact negative (significandOf m * 2 ^ (exponentOf m).toNat) (-exponentOf m).toNat).magnitude =
      m := by
  have value := exact_value negative (significandOf m * 2 ^ (exponentOf m).toNat)
    (-exponentOf m).toNat
  have scaled := value.trans (ratio_eq (by norm_num) (significandOf m) (exponentOf m))
  obtain ⟨least, below⟩ := value_bounds some finite
  rw [Nat.cast_ofNat] at scaled
  rw [← scaled] at least below
  rw [Decimal.magnitude_of_value (by positivity) value least below, nearestMagnitude_of_bits finite]

/-- The shortest decimal number of finite magnitude bits reads back as these bits. -/
theorem ofBinary_readsBack (negative : Bool) {m : ℕ} (finite : m < infinityBits) :
    (ofBinary ⟨negative, significandOf m, exponentOf m⟩).negative = negative ∧
      (ofBinary ⟨negative, significandOf m, exponentOf m⟩).magnitude = m := by
  by_cases none : m = 0
  · have zero : significandOf m * 2 ^ (exponentOf m).toNat = 0 := by
      rw [significandOf_eq_zero_iff.2 none, Nat.zero_mul]
    rw [ofBinary, if_pos zero]
    exact ⟨rfl, none.symm⟩
  · have some : significandOf m * 2 ^ (exponentOf m).toNat ≠ 0 := by
      have significand : significandOf m ≠ 0 := mt significandOf_eq_zero_iff.1 none
      positivity
    rw [ofBinary, if_neg some]
    dsimp only
    rw [nearestMagnitude_of_bits finite]
    split
    · rename_i found taken
      obtain ⟨i, -, taken⟩ := List.exists_of_findSome?_eq_some taken
      exact ofCount?_readsBack taken
    · exact ⟨rfl, exact_readsBack negative none finite⟩

/-- The shortest decimal number of a finite float has its magnitude. -/
theorem ofBinary_magnitude {x : Float} {b : Binary} (finite : Binary.ofFloat? x = some b) :
    (ofBinary b).magnitude = magnitude x := by
  rw [Binary.ofFloat?] at finite
  split at finite
  · rename_i below
    cases finite
    exact (ofBinary_readsBack (isNegative x) below).2
  · exact nomatch finite

end Shortest

end Calculator.Number
