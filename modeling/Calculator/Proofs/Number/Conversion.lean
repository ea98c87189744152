import Calculator.Proofs.Number.Arithmetic

/-!
# Integers among the floats

A float is integral exactly if its value is an integer, however great. The remainder
that is taken of it is its least residue, exactly, which is what the conversion to a
word finds: it has nothing to round and nothing to clamp.
-/
namespace Calculator.Number

/-- The float is exactly the integer. -/
def IsInteger (x : Float) (m : ℤ) : Prop := value? x = some (m : ℚ)

/-- The float is infinite or no number, or it has something behind its point. -/
def IsBroken (x : Float) : Prop := x.isFinite = false ∨ ∃ r, value? x = some r ∧ Int.fract r ≠ 0

theorem isBroken_iff (x : Float) : IsBroken x ↔ ¬∃ m, IsInteger x m := by
  unfold IsBroken IsInteger
  rw [isFinite_eq]
  cases value? x with
  | none => simp
  | some r => simp [Int.fract_eq_zero_iff, eq_comm]

/-! ## The divisors -/

theorem value?_one : value? 1 = some 1 := by
  have finite : Binary.ofFloat? 1 = some ⟨false, 2 ^ 52, -52⟩ := by decide +kernel
  rw [value?_of_float finite, Binary.value]
  norm_num

theorem value?_modulus : value? 4294967296 = some 4294967296 := by
  have finite : Binary.ofFloat? 4294967296 = some ⟨false, 2 ^ 52, -20⟩ := by decide +kernel
  rw [value?_of_float finite, Binary.value]
  norm_num

theorem abs_modulus : Float.abs 4294967296 = 4294967296 := by decide +kernel

/-! ## Integral floats -/

theorem isIntegral_iff (x : Float) : isIntegral x = true ↔ ∃ m, IsInteger x m := by
  unfold IsInteger
  rw [isIntegral, isFinite_eq, Bool.and_eq_true, fraction]
  cases exact : value? x with
  | none => simp
  | some r =>
    obtain ⟨q, left, rest, split, small, -⟩ := remainder_exact exact value?_one one_ne_zero
    rw [abs_one] at split small
    rw [beq_zero_iff rest, split, mul_one]
    constructor
    · rintro ⟨-, same⟩
      exact ⟨q, congrArg some (sub_eq_zero.1 same)⟩
    · rintro ⟨m, same⟩
      obtain rfl := Option.some_inj.1 same
      rw [split, mul_one] at small
      have none : m - q = 0 := Int.abs_lt_one_iff.1 (by exact_mod_cast small)
      exact ⟨rfl, by exact_mod_cast none⟩

/-- A Euclidean remainder is the least residue of an integer, however great. -/
theorem isInteger_euclideanRemainder {x : Float} {m : ℤ} (exact : IsInteger x m) :
    IsInteger (euclideanRemainder x 4294967296) (m % 4294967296) := by
  obtain ⟨q, left, rest, split, small, -⟩ :=
    remainder_exact exact value?_modulus (by norm_num)
  obtain ⟨l, difference⟩ : ∃ l, l = m - q * 4294967296 := ⟨_, rfl⟩
  have whole : left = (l : ℚ) := by
    rw [split, difference]
    norm_num
  subst whole
  have bound : |l| < 4294967296 := by exact_mod_cast small
  obtain ⟨least, greatest⟩ := abs_lt.1 bound
  rw [euclideanRemainder]
  by_cases negative : l < 0
  · have residue : m % 4294967296 = l + 4294967296 := by omega
    have sum : value? (ofInt (l + 4294967296)) = some ((l : ℚ) + 4294967296) := by
      rw [value?_ofInt (by omega)]
      norm_cast
    have nonzero : (l : ℚ) + 4294967296 ≠ 0 := by exact_mod_cast (show l + 4294967296 ≠ 0 by omega)
    rw [if_pos ((lt_zero_iff rest).2 (by exact_mod_cast negative)), abs_modulus,
      add_exact rest value?_modulus sum nonzero, residue]
    exact value?_ofInt (by omega)
  · have residue : m % 4294967296 = l := by omega
    rw [if_neg (mt (lt_zero_iff rest).1 (by exact_mod_cast negative)), residue]
    exact rest

/-- The word of an integer is its least residue: the conversion has nothing to clamp. -/
theorem Word.toNat_ofFloat {x : Float} {m : ℤ} (exact : IsInteger x m) :
    ((Word.ofFloat x).toNat : ℤ) = m % 4294967296 := by
  have nonzero : (4294967296 : ℤ) ≠ 0 := by decide
  obtain ⟨k, residue⟩ := Int.eq_ofNat_of_zero_le (Int.emod_nonneg m nonzero)
  have least := isInteger_euclideanRemainder exact
  rw [residue] at least
  have small : k < UInt32.size := by
    change k < 4294967296
    omega
  rw [residue, Word.ofFloat, toUInt32_exact (k := k) least, UInt32.toNat_toBitVec,
    UInt32.toNat_ofNatClamp_of_lt small]

end Calculator.Number
