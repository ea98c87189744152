import Calculator.Proofs.Number.Conversion
import Calculator.Standard.Vocabulary

/-!
# The operators on words

Exact results of the operators on integers. Each operand is an integer of any size and
stands for its least residue modulo `2 ^ 32`; what an operator answers is a number of
these residues, read as signed everywhere but behind an unsigned shift. Operands that
are no integers are refused.
-/
namespace Calculator.Standard
open Number

/-! ## Arithmetic of words -/

/-- The word of an integer. -/
def residue (i : ℤ) : ℕ := (i % 2 ^ 32).toNat

/-- A word read as a number in two's complement. -/
def signed (w : ℕ) : ℤ := if w < 2 ^ 31 then w else w - 2 ^ 32

/-- The operations on words. -/
inductive WordOperation where
  | and
  | or
  | xor
  | shiftLeft
  | shiftRight
  | shiftRightUnsigned

namespace WordOperation

/-- Exact spelling of an operation. -/
def name : WordOperation → String
  | and => "&"
  | or => "|"
  | xor => "^"
  | shiftLeft => "<<"
  | shiftRight => ">>"
  | shiftRightUnsigned => ">>>"

/-- What an operation makes of two integers. A signed shift to the right divides the
    signed word and drops the rest downward. -/
def result : WordOperation → ℤ → ℤ → ℤ
  | and, m, n => signed (residue m &&& residue n)
  | or, m, n => signed (residue m ||| residue n)
  | xor, m, n => signed (residue m ^^^ residue n)
  | shiftLeft, m, n => signed (residue m * 2 ^ (n % 32).toNat % 2 ^ 32)
  | shiftRight, m, n => signed (residue m) / 2 ^ (n % 32).toNat
  | shiftRightUnsigned, m, n => (residue m / 2 ^ (n % 32).toNat : ℕ)

/-- The modulus up to which the second operand counts. -/
def period : WordOperation → ℤ
  | and | or | xor => 2 ^ 32
  | shiftLeft | shiftRight | shiftRightUnsigned => 32

/-- The least result of an operation; the results are the `2 ^ 32` integers from there. -/
def least : WordOperation → ℤ
  | shiftRightUnsigned => 0
  | _ => -2 ^ 31

/-- The operation on the bits of the words. -/
def onBits : WordOperation → Word → Word → ℤ
  | and => Word.and
  | or => Word.or
  | xor => Word.xor
  | shiftLeft => Word.shiftLeft
  | shiftRight => Word.shiftRight
  | shiftRightUnsigned => Word.shiftRightUnsigned

end WordOperation

theorem residue_lt (i : ℤ) : residue i < 2 ^ 32 := by
  unfold residue
  omega

theorem residue_congr {i j : ℤ} (same : i ≡ j [ZMOD 2 ^ 32]) : residue i = residue j :=
  congrArg Int.toNat same

theorem signed_bounds {w : ℕ} (word : w < 2 ^ 32) : -2 ^ 31 ≤ signed w ∧ signed w < 2 ^ 31 := by
  unfold signed
  split
  · omega
  · omega

/-- Division by a positive number does not leave the signed words. -/
theorem signed_div_bounds {i : ℤ} (bounds : -2 ^ 31 ≤ i ∧ i < 2 ^ 31) (places : ℕ) :
    -2 ^ 31 ≤ i / 2 ^ places ∧ i / 2 ^ places < 2 ^ 31 := by
  have positive : (0 : ℤ) < 2 ^ places := by positivity
  constructor
  · rw [Int.le_ediv_iff_mul_le positive]
    nlinarith [bounds.1]
  · rw [Int.ediv_lt_iff_lt_mul positive]
    nlinarith [bounds.2]

/-- The results of an operation lie within one word. -/
theorem WordOperation.result_bounds (o : WordOperation) (m n : ℤ) :
    o.least ≤ o.result m n ∧ o.result m n < o.least + 2 ^ 32 := by
  have word := residue_lt m
  have word' := residue_lt n
  cases o with
  | and => exact signed_bounds (Nat.and_lt_two_pow _ word')
  | or => exact signed_bounds (Nat.or_lt_two_pow word word')
  | xor => exact signed_bounds (Nat.xor_lt_two_pow word word')
  | shiftLeft => exact signed_bounds (Nat.mod_lt _ (by decide))
  | shiftRight => exact signed_div_bounds (signed_bounds word) _
  | shiftRightUnsigned =>
    have less := (Nat.div_le_self (residue m) (2 ^ (n % 32).toNat)).trans_lt word
    refine ⟨Int.natCast_nonneg _, ?_⟩
    change ((residue m / 2 ^ (n % 32).toNat : ℕ) : ℤ) < 0 + 2 ^ 32
    exact_mod_cast less

/-- Only the words of the operands count, and of the second one of a shift its last five
    bits. -/
theorem WordOperation.result_congr (o : WordOperation) {m m' n n' : ℤ} (left : m ≡ m' [ZMOD 2 ^ 32])
    (right : n ≡ n' [ZMOD o.period]) : o.result m n = o.result m' n' := by
  have word := residue_congr left
  cases o with
  | and => rw [result, result, word, residue_congr right]
  | or => rw [result, result, word, residue_congr right]
  | xor => rw [result, result, word, residue_congr right]
  | shiftLeft => rw [result, result, word, show n % 32 = n' % 32 from right]
  | shiftRight => rw [result, result, word, show n % 32 = n' % 32 from right]
  | shiftRightUnsigned => rw [result, result, word, show n % 32 = n' % 32 from right]

/-! ## Words of bits -/

section Bits
variable {a b : Word} {m n : ℤ}

theorem toInt_eq_signed (a : Word) : a.toInt = signed a.toNat := by
  rw [BitVec.toInt_eq_toNat_cond, signed]
  split
  · rw [if_pos (by omega)]
  · rw [if_neg (by omega)]
    norm_cast

theorem shiftCount_eq (word : b.toNat = residue n) : b.shiftCount = (n % 32).toNat := by
  rw [Word.shiftCount, word, residue]
  omega

/-- The operation on bits is that on residues. -/
theorem WordOperation.onBits_eq (o : WordOperation) (left : a.toNat = residue m)
    (right : b.toNat = residue n) : o.onBits a b = o.result m n := by
  cases o with
  | and => rw [onBits, Word.and, toInt_eq_signed, BitVec.toNat_and, left, right, result]
  | or => rw [onBits, Word.or, toInt_eq_signed, BitVec.toNat_or, left, right, result]
  | xor => rw [onBits, Word.xor, toInt_eq_signed, BitVec.toNat_xor, left, right, result]
  | shiftLeft =>
    rw [onBits, Word.shiftLeft, toInt_eq_signed, BitVec.toNat_shiftLeft, Nat.shiftLeft_eq, left,
      shiftCount_eq right, result]
  | shiftRight =>
    rw [onBits, Word.shiftRight, BitVec.toInt_sshiftRight, Int.shiftRight_eq_div_pow,
      toInt_eq_signed, left, shiftCount_eq right, result]
    norm_cast
  | shiftRightUnsigned =>
    rw [onBits, Word.shiftRightUnsigned, BitVec.toNat_ushiftRight, Nat.shiftRight_eq_div_pow, left,
      shiftCount_eq right, result]

end Bits

theorem toNat_ofFloat_eq_residue {x : Float} {m : ℤ} (exact : IsInteger x m) :
    (Word.ofFloat x).toNat = residue m := by
  have word := Word.toNat_ofFloat exact
  rw [residue]
  omega

/-! ## The operators -/

/-- An operator works on the words of integers: what is said of it for every operand. -/
structure WorksOnWords (o : WordOperation) (op : Operator) : Prop where
  tier : op.tier = .factor
  /-- An operand that is no integer is refused. -/
  refuses : ∀ x y, IsBroken x ∨ IsBroken y →
    op.operate x y = .finish (.error (.type (integralMessage o.name x y)))
  /-- Integers of any size have the result of their words, and it is not rounded. -/
  answers : ∀ x y m n, IsInteger x m → IsInteger y n →
    ∃ z, op.operate x y = .finish (.ok z) ∧ IsInteger z (o.result m n)

theorem onWords_of_broken {x y : Float} (broken : IsBroken x ∨ IsBroken y) (name : String)
    (operation : Word → Word → ℤ) :
    onWords name operation x y = .error (.type (integralMessage name x y)) := by
  have refused : ¬(isIntegral x && isIntegral y) = true := by
    rw [Bool.and_eq_true, isIntegral_iff, isIntegral_iff]
    rintro ⟨left, right⟩
    rcases broken with broken | broken
    · exact (isBroken_iff x).1 broken left
    · exact (isBroken_iff y).1 broken right
  rw [onWords, if_neg refused]

theorem onWords_of_integers {x y : Float} {m n : ℤ} (left : IsInteger x m) (right : IsInteger y n)
    (o : WordOperation) : onWords o.name o.onBits x y = .ok (ofInt (o.result m n)) := by
  have integral : (isIntegral x && isIntegral y) = true := by
    rw [Bool.and_eq_true, isIntegral_iff, isIntegral_iff]
    exact ⟨⟨m, left⟩, ⟨n, right⟩⟩
  rw [onWords, if_pos integral,
    o.onBits_eq (toNat_ofFloat_eq_residue left) (toNat_ofFloat_eq_residue right)]

theorem wordOperator_works (o : WordOperation) : WorksOnWords o (wordOperator o.name o.onBits) where
  tier := rfl
  refuses x y broken := congrArg Script.finish (onWords_of_broken broken o.name o.onBits)
  answers x y m n left right := by
    obtain ⟨lower, upper⟩ := o.result_bounds m n
    have short : (o.result m n).natAbs < 2 ^ 53 := by
      cases o <;> simp only [WordOperation.least] at lower upper <;> omega
    exact ⟨ofInt (o.result m n), congrArg Script.finish (onWords_of_integers left right o),
      value?_ofInt short⟩

theorem find?_wordOperator (o : WordOperation) :
    vocabulary.operators.find? o.name = some (wordOperator o.name o.onBits) := by
  cases o <;> rfl

/-- The arithmetic of an operation on words, as every new evaluator knows it. -/
structure WordArithmetic (o : WordOperation) : Prop where
  /-- The operation is declared under its name. -/
  declared : ∃ op, vocabulary.operators.find? o.name = some op ∧ WorksOnWords o op
  bounded : ∀ m n, o.least ≤ o.result m n ∧ o.result m n < o.least + 2 ^ 32
  wraps : ∀ m m' n n', m ≡ m' [ZMOD 2 ^ 32] → n ≡ n' [ZMOD o.period] →
    o.result m n = o.result m' n'
  /-- The conversion to a word has the residue itself before it, and does not clamp it. -/
  converts : ∀ x m, IsInteger x m →
    IsInteger (euclideanRemainder x 4294967296) (residue m) ∧
      (euclideanRemainder x 4294967296).toUInt32.toNat = residue m

theorem isInteger_residue {x : Float} {m : ℤ} (exact : IsInteger x m) :
    IsInteger (euclideanRemainder x 4294967296) (residue m) := by
  have same : (residue m : ℤ) = m % 4294967296 := by
    rw [residue]
    omega
  rw [same]
  exact isInteger_euclideanRemainder exact

/-- Each of the six operators computes with words of 32 bits on integers of any size, and
    refuses what is no integer. -/
theorem WordOperation.wordArithmetic (o : WordOperation) : WordArithmetic o where
  declared := ⟨wordOperator o.name o.onBits, find?_wordOperator o, wordOperator_works o⟩
  bounded := o.result_bounds
  wraps _ _ _ _ := o.result_congr
  converts _ _ exact := ⟨isInteger_residue exact, toNat_ofFloat_eq_residue exact⟩

/-- A negative number beyond the integers that floats count one by one, shifted by a
    negative count. -/
theorem WordOperation.wordArithmetic_past_precision :
    ∃ op z, vocabulary.operators.find? ">>>" = some op ∧
      op.operate (-9007199254740994) (-31) = .finish (.ok z) ∧ IsInteger z 2147483647 := by
  have operand : IsInteger (-9007199254740994) (-9007199254740994) := by
    have finite : Binary.ofFloat? (-9007199254740994) = some ⟨true, 4503599627370497, 1⟩ := by
      decide +kernel
    rw [IsInteger, value?_of_float finite, Binary.value]
    norm_num
  have count : IsInteger (-31) (-31) := by
    have finite : Binary.ofFloat? (-31) = some ⟨true, 31 * 2 ^ 48, -48⟩ := by decide +kernel
    rw [IsInteger, value?_of_float finite, Binary.value]
    norm_num
  obtain ⟨op, listed, works⟩ := (WordOperation.wordArithmetic .shiftRightUnsigned).declared
  obtain ⟨z, answer, exact⟩ := works.answers _ _ _ _ operand count
  exact ⟨op, z, listed, answer, exact⟩

end Calculator.Standard
