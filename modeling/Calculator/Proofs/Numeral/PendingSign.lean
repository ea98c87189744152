import Calculator.Evaluation.Tree
import Calculator.Proofs.Numeral.RoundTrip

/-!
# A sign in front of a written number

A pending sign stays text in front of what is written behind it: the unsigned numeral of a
number takes the sign as its own, and the sign of a negative number is a second one, which
leaves no numeral. A sign that is applied to the number always leaves one.
-/
namespace Calculator.Numeral
open Number

/-- A number under a sign. -/
def signed (sign : Char) (x : Float) : Float := if sign = '-' then -x else x

/-! ## Plain numerals -/

/-- Digits with an optional point are an unsigned numeral. -/
theorem exists_unsigned_of_plain {ds : List Char} (plain : IsPlainNumeral ds) :
    ∃ bits ≤ infinityBits, Unsigned ds bits := by
  obtain ⟨whole, fraction, some, digits, fractional, rfl | rfl⟩ := plain
  · have bare : ([] : List Char).all Char.isDigit = true := rfl
    have unsigned := unsigned_digits some digits bare rfl rfl (bodyOf?_pointed some digits bare)
    rw [pointed, List.append_nil] at unsigned
    exact ⟨_, Decimal.magnitude_le _, unsigned⟩
  · cases fraction with
    | nil =>
      exact ⟨_, Decimal.magnitude_le _,
        unsigned_digits some digits rfl rfl rfl (bodyOf?_point some digits)⟩
    | cons c rest =>
      exact ⟨_, Decimal.magnitude_le _, unsigned_digits some digits fractional rfl rfl
        (bodyOf?_pointed some digits fractional)⟩

/-- A plain numeral is read as a number, and under a sign as the signed number. -/
theorem exists_signed_of_plain {ds : List Char} (plain : IsPlainNumeral ds) :
    ∃ x, read (String.ofList ds) = .ok x ∧
      ∀ sign, Character.isSign sign = true →
        read (String.ofList (sign :: ds)) = .ok (signed sign x) := by
  obtain ⟨bits, bounded, unsigned⟩ := exists_unsigned_of_plain plain
  refine ⟨ofMagnitude false bits, unsigned.read false, fun sign isSign => ?_⟩
  rcases (Character.isSign_iff sign).1 isSign with rfl | rfl
  · exact unsigned.read_plus
  · rw [signed, if_pos rfl, neg_ofMagnitude false bounded]
    exact unsigned.read true

/-- A plain numeral is read under every sign. -/
theorem exists_read_of_plain {sign : Option Char} (optional : IsOptionalSign sign)
    {ds : List Char} (plain : IsPlainNumeral ds) :
    ∃ x, read (String.ofList (sign.toList ++ ds)) = .ok x := by
  obtain ⟨x, unsigned, behind⟩ := exists_signed_of_plain plain
  cases sign with
  | none => exact ⟨x, unsigned⟩
  | some sign => exact ⟨_, behind sign (optional sign rfl)⟩

/-! ## Written numbers -/

namespace Draft

theorem pushValue_read (x : Float) : ((ofSign none).pushValue x).read = .ok x := by
  have text : ((ofSign none).pushValue x).text = write x := by simp [ofSign, empty, pushValue]
  rw [read, text]
  exact read_write x

/-- Exact text of a number behind a pending sign. -/
theorem pushValue_text (sign : Char) (x : Float) :
    ((ofSign (some sign)).pushValue x).text = String.ofList (sign :: Style.numeral.text x) := by
  rw [← String.toList_inj]
  simp [ofSign, empty, pushSign, pushValue, write, Style.write]

variable {sign : Char} {x : Float}

/-- The text of an applied sign is read as the signed number. -/
theorem applySign_read (isSign : Character.isSign sign = true) (x : Float) :
    ((ofSign (some sign)).applySign x).read = .ok (signed sign x) := by
  have found : (ofSign (some sign)).sign? = some sign := by
    simp [ofSign, empty, pushSign, sign?, isSign]
  have applied : ((ofSign (some sign)).applySign x).text = write (signed sign x) := by
    simp only [applySign, found, Option.some_inj, signed]
  rw [read, applied]
  exact read_write _

/-- A pending sign is that of the number behind it, unless this is negative. -/
theorem read_of_nonnegative (isSign : Character.isSign sign = true)
    (nonnegative : isNegative x = false) :
    ((ofSign (some sign)).pushValue x).read = .ok (signed sign x) := by
  rw [read, pushValue_text]
  cases number : x.isNaN with
  | true =>
    rw [eq_nan_of_isNaN number]
    rcases (Character.isSign_iff sign).1 isSign with rfl | rfl
    · rfl
    · rfl
  | false =>
    obtain ⟨chars, text, numeral⟩ := exists_unsigned number
    rw [text, nonnegative]
    rcases (Character.isSign_iff sign).1 isSign with rfl | rfl
    · have same : ofMagnitude false (magnitude x) = x := by
        rw [← nonnegative, ofMagnitude_magnitude]
      exact numeral.read_plus.trans (congrArg Except.ok same)
    · have negated : ofMagnitude true (magnitude x) = -x := by
        rw [neg_eq, nonnegative]
        rfl
      exact (numeral.read true).trans (congrArg Except.ok negated)

/-- Behind a pending sign a negative number is no numeral. -/
theorem read_of_negative (isSign : Character.isSign sign = true) (number : x.isNaN = false)
    (negative : isNegative x = true) :
    ((ofSign (some sign)).pushValue x).read =
      .error (.malformedNumeral ((ofSign (some sign)).pushValue x).text) := by
  obtain ⟨chars, text, -⟩ := exists_unsigned number
  -- A numeral has at most one sign, and its digits do not begin with another.
  have noBody : bodyOf? ('-' :: chars) = none := by
    simp [bodyOf?, splitDigits, show isDecimalDigit '-' = false by decide]
  have noShape : shapeOf? (sign :: '-' :: chars) = none := by
    rcases (Character.isSign_iff sign).1 isSign with rfl | rfl
    · simp [shapeOf?, splitSign, noBody]
    · simp [shapeOf?, splitSign, noBody]
  have spelled : ((ofSign (some sign)).pushValue x).text.toList = sign :: '-' :: chars := by
    rw [pushValue_text, text, negative, String.toList_ofList]
    rfl
  rw [read, Numeral.read, spelled, noShape]

end Draft

/-- What a number comes to behind a pending sign. -/
structure Pending (x : Float) : Prop where
  /-- Without a sign the number is read back. -/
  unsigned : ((Draft.ofSign none).pushValue x).read = .ok x
  plus : x.isNaN = true ∨ isNegative x = false →
    ((Draft.ofSign (some '+')).pushValue x).read = .ok x
  minus : x.isNaN = true ∨ isNegative x = false →
    ((Draft.ofSign (some '-')).pushValue x).read = .ok (-x)
  /-- The sign of a negative number is a second one. -/
  refused : x.isNaN = false → isNegative x = true → ∀ sign, Character.isSign sign = true →
    ∃ e, ((Draft.ofSign (some sign)).pushValue x).read = .error e ∧ e.kind = .numeral
  /-- An applied sign leaves the signed number. -/
  applied : ∀ sign, IsOptionalSign sign →
    ((Draft.ofSign sign).applySign x).read = .ok (if sign = some '-' then -x else x)

theorem isNegative_of_isNaN {x : Float} (none : x.isNaN = true) : isNegative x = false := by
  rw [eq_nan_of_isNaN none]
  decide

/-- Every number survives its own text, and a pending sign is text in front of it. -/
theorem pending (x : Float) : Pending x where
  unsigned := Draft.pushValue_read x
  plus positive := by
    have nonnegative : isNegative x = false := positive.elim isNegative_of_isNaN id
    exact Draft.read_of_nonnegative (by decide) nonnegative
  minus positive := by
    have nonnegative : isNegative x = false := positive.elim isNegative_of_isNaN id
    exact Draft.read_of_nonnegative (by decide) nonnegative
  refused number negative sign isSign := ⟨_, Draft.read_of_negative isSign number negative, rfl⟩
  applied sign optional := by
    cases sign with
    | none => exact read_write x
    | some sign =>
      have applied := Draft.applySign_read (optional sign rfl) x
      simpa only [signed, Option.some_inj] using applied

/-- A minus is refused in front of a written minus zero, and leaves zero if it is applied. -/
theorem pending_minus_zero :
    isNegative (-0) = true ∧
      (∃ e, ((Draft.ofSign (some '-')).pushValue (-0)).read = .error e ∧ e.kind = .numeral) ∧
        ((Draft.ofSign (some '-')).applySign (-0)).read = .ok 0 := by
  have minus : Character.isSign '-' = true := by decide
  have negative : isNegative (-0) = true := by decide +kernel
  have zero : -(-0 : Float) = 0 := by decide +kernel
  refine ⟨negative, (pending (-0)).refused (by decide +kernel) negative '-' minus, ?_⟩
  rw [(pending (-0)).applied (some '-') (by rintro _ ⟨⟩; exact minus), if_pos rfl, zero]

end Calculator.Numeral
