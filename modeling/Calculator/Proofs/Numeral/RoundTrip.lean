import Calculator.Numeral.Reading
import Calculator.Proofs.Number.ReadsBack
import Calculator.Proofs.Numeral.Spelling

/-!
# Written numbers

What is written for a float is read as exactly this float: the word for no number, a
signed infinity, or the digits of a decimal number with a point at its place.
-/
namespace Calculator.Numeral
open Number

/-! ## The parts of a text -/

theorem all_isDecimalDigit {digits : List Char} (plain : digits.all Char.isDigit = true) :
    digits.all isDecimalDigit = true :=
  List.all_eq_true.2 fun c member => isDecimalDigit_of_isDigit (List.all_eq_true.1 plain c member)

/-- Digits with an optional fraction have the shape of these digits. -/
theorem bodyOf?_pointed {whole fraction : List Char} (some : whole ≠ [])
    (plain : whole.all Char.isDigit = true) (fractional : fraction.all Char.isDigit = true) :
    bodyOf? (whole ++ pointed fraction) = .some (.digits whole fraction .none) := by
  have spells : (Body.digits whole fraction .none).Spells (whole ++ (pointed fraction ++ [])) :=
    .digits ⟨some, all_isDecimalDigit plain⟩ (all_isDecimalDigit fractional) .none
  rw [List.append_nil] at spells
  exact bodyOf?_eq_some_iff.2 spells

/-- A bare point may stand behind digits. -/
theorem bodyOf?_point {whole : List Char} (some : whole ≠ [])
    (plain : whole.all Char.isDigit = true) :
    bodyOf? (whole ++ ['.']) = .some (.digits whole [] .point) :=
  bodyOf?_eq_some_iff.2 (.digits ⟨some, all_isDecimalDigit plain⟩ rfl .point)

/-- The text of a sign and an unsigned number has the shape of both. -/
theorem shapeOf?_signed {chars : List Char} {body : Body} (negative : Bool)
    (read : bodyOf? chars = some body)
    (unsigned : ∀ c ∈ chars.head?, c ≠ '-' ∧ c ≠ '+') :
    shapeOf? ((if negative then ['-'] else []) ++ chars) = some ⟨negative, body⟩ := by
  cases negative with
  | true => simp [shapeOf?, splitSign, read]
  | false =>
    have bare : IsUnsignedText chars := fun c head => by
      rw [← Bool.not_eq_true, Character.isSign_iff]
      exact not_or.2 (unsigned c head).symm
    simp [shapeOf?, splitSign_of_unsigned bare, read]

/-! ## Digits of decimal numbers -/

theorem isDigit_digits (n : Nat) : (Nat.toDigits 10 n).all Char.isDigit = true :=
  List.all_eq_true.2 fun _ member => Nat.isDigit_of_mem_toDigits (by decide) (by decide) member

theorem isDigit_zeros (n : Nat) : (List.replicate n '0').all Char.isDigit = true := by
  simp [List.all_replicate]

theorem natural_append (whole fraction : List Char) :
    natural (whole ++ fraction) = 10 ^ fraction.length * natural whole + natural fraction := by
  rw [natural, Nat.ofDigitChars_append, Nat.ofDigitChars_eq_ofDigitChars_zero]
  rfl

theorem natural_zeros (n : Nat) : natural (List.replicate n '0') = 0 := by
  rw [natural, Nat.ofDigitChars_replicate_zero, Nat.mul_zero]

/-- Whether a text is that of digits with a fraction behind its point, and has the value of
    the given digits, scaled by a power of ten. -/
def Splits (text digits : List Char) (exponent : Int) : Prop :=
  ∃ whole fraction, whole ≠ [] ∧ whole.all Char.isDigit = true ∧
    fraction.all Char.isDigit = true ∧ text = whole ++ pointed fraction ∧
    (natural (whole ++ fraction) : ℚ) * 10 ^ (-(fraction.length : ℤ)) =
      natural digits * 10 ^ exponent

section

variable {digits : List Char}

/-- Zeros behind digits scale their value. -/
theorem splits_zeros (some : digits ≠ []) (plain : digits.all Char.isDigit = true) (count : Nat) :
    Splits (digits ++ List.replicate count '0') digits count := by
  refine ⟨digits ++ List.replicate count '0', [], by simp [some], ?_, rfl, ?_, ?_⟩
  · rw [List.all_append, plain, isDigit_zeros]
    rfl
  · rw [pointed, List.append_nil]
  · rw [List.append_nil, natural_append, natural_zeros, List.length_replicate, zpow_natCast]
    push_cast
    simp [mul_comm]

/-- Behind a point in front of all digits, zeros fill the places up to them. -/
theorem splits_fraction (some : digits ≠ []) (plain : digits.all Char.isDigit = true)
    {places : Nat} (short : digits.length ≤ places) :
    Splits ('0' :: '.' :: (List.replicate (places - digits.length) '0' ++ digits)) digits
      (-places) := by
  have nonempty : List.replicate (places - digits.length) '0' ++ digits ≠ [] := by simp [some]
  refine ⟨['0'], List.replicate (places - digits.length) '0' ++ digits, List.cons_ne_nil _ _, rfl,
    ?_, ?_, ?_⟩
  · rw [List.all_append, plain, isDigit_zeros]
    rfl
  · rw [pointed_of_ne_nil nonempty]
    rfl
  · have value : natural (['0'] ++ (List.replicate (places - digits.length) '0' ++ digits)) =
        natural digits := by
      have zero : natural ['0'] = 0 := rfl
      rw [natural_append, natural_append, natural_zeros, zero]
      simp
    have count : (List.replicate (places - digits.length) '0' ++ digits).length = places := by
      rw [List.length_append, List.length_replicate]
      omega
    rw [value, count]

/-- A point between digits splits them. -/
theorem splits_between (some : digits ≠ []) (plain : digits.all Char.isDigit = true)
    {places : Nat} (positive : places ≠ 0) (long : places < digits.length) :
    Splits (digits.take (digits.length - places) ++ '.' :: digits.drop (digits.length - places))
      digits (-places) := by
  have nonempty : digits.drop (digits.length - places) ≠ [] := by
    rw [Ne, List.drop_eq_nil_iff]
    omega
  have count : (digits.drop (digits.length - places)).length = places := by
    rw [List.length_drop]
    omega
  rw [← List.take_append_drop (digits.length - places) digits, List.all_append,
    Bool.and_eq_true] at plain
  refine ⟨digits.take (digits.length - places), digits.drop (digits.length - places), ?_, plain.1,
    plain.2, ?_, ?_⟩
  · rw [Ne, List.take_eq_nil_iff]
    exact not_or.2 ⟨by omega, some⟩
  · rw [pointed_of_ne_nil nonempty]
  · rw [List.take_append_drop, count]

/-- Digits with a point at its place are a whole number and a fraction of the same value. -/
theorem positionalText_splits (some : digits ≠ []) (plain : digits.all Char.isDigit = true)
    (exponent : Int) : Splits (Style.positionalText digits exponent) digits exponent := by
  rw [Style.positionalText]
  by_cases integral : 0 ≤ exponent
  · have zeros := splits_zeros some plain exponent.toNat
    rw [Int.toNat_of_nonneg integral] at zeros
    rwa [if_pos integral]
  · have places : -((-exponent).toNat : ℤ) = exponent := by omega
    rw [if_neg integral]
    by_cases short : digits.length ≤ (-exponent).toNat
    · have fraction := splits_fraction some plain short
      rw [places] at fraction
      rwa [if_pos short]
    · have between := splits_between some plain (by omega) (not_le.1 short)
      rw [places] at between
      rwa [if_neg short]

end

/-! ## Unsigned numerals -/

/-- Whether a text is read, under either sign, as the float of this sign and of given
    magnitude bits. -/
structure Unsigned (chars : List Char) (bits : Nat) : Prop where
  body : ∃ body, bodyOf? chars = some body ∧
    ∀ negative, (Shape.mk negative body).value? = some (ofMagnitude negative bits)
  begins : ∀ c ∈ chars.head?, c ≠ '-' ∧ c ≠ '+'

/-- Digits without a power of ten are an unsigned numeral. -/
theorem unsigned_digits {whole fraction behind : List Char} {ending : Ending} (some : whole ≠ [])
    (plain : whole.all Char.isDigit = true) (fractional : fraction.all Char.isDigit = true)
    (accepted : ending.isAccepted fraction = true) (bare : ending.exponent = 0)
    (body : bodyOf? (whole ++ behind) = .some (.digits whole fraction ending)) :
    Unsigned (whole ++ behind)
      (Decimal.magnitude ⟨false, natural (whole ++ fraction), 0 - fraction.length⟩) := by
  refine ⟨⟨_, body, fun negative => ?_⟩, ?_⟩
  · simp only [Shape.value?, plain, fractional, accepted, bare, Bool.and_self, if_true]
    rfl
  · obtain ⟨c, rest, rfl⟩ := List.exists_cons_of_ne_nil some
    rw [List.all_cons, Bool.and_eq_true] at plain
    rintro _ ⟨⟩
    exact ⟨ne_of_class plain.1 (by decide), ne_of_class plain.1 (by decide)⟩

/-- The digits of a decimal number are an unsigned numeral of its magnitude. -/
theorem unsigned_decimal (d : Decimal) : Unsigned (Style.numeral.decimalText d) d.magnitude := by
  obtain ⟨whole, fraction, some, plain, fractional, text, same⟩ :=
    positionalText_splits Nat.toDigits_ne_nil (isDigit_digits d.coefficient) d.exponent
  have written : Style.numeral.decimalText d = whole ++ pointed fraction := text
  have magnitude : Decimal.magnitude ⟨false, natural (whole ++ fraction), 0 - fraction.length⟩ =
      d.magnitude := by
    have coefficient : natural (Nat.toDigits 10 d.coefficient) = d.coefficient :=
      Nat.ofDigitChars_ten_toDigits
    refine Decimal.magnitude_congr ?_
    rw [Decimal.value, Decimal.value, Int.zero_sub, same, coefficient]
  rw [written, ← magnitude]
  exact unsigned_digits some plain fractional rfl rfl (bodyOf?_pointed some plain fractional)

/-- The word for infinity is an unsigned numeral. -/
theorem unsigned_infinity : Unsigned Style.numeral.infinity.toList infinityBits where
  body := ⟨.infinity, rfl, fun _ => rfl⟩
  begins := by
    rintro _ ⟨⟩
    decide

/-- Without a finite value a number has the magnitude of infinity. -/
theorem magnitude_of_infinite {x : Float} (number : x.isNaN = false)
    (infinite : Binary.ofFloat? x = none) : magnitude x = infinityBits := by
  have greatest := magnitude_le number
  rw [Binary.ofFloat?] at infinite
  split at infinite
  · cases infinite
  · omega

/-- A number is written as an unsigned numeral of its magnitude, behind a minus if it is
    negative. -/
theorem exists_unsigned {x : Float} (number : x.isNaN = false) :
    ∃ chars, Style.numeral.text x = (if isNegative x then ['-'] else []) ++ chars ∧
      Unsigned chars (magnitude x) := by
  have some : ¬ x.isNaN = true := Bool.eq_false_iff.1 number
  rw [Style.text, if_neg some]
  dsimp only
  cases finite : Binary.ofFloat? x with
  | none =>
    refine ⟨_, rfl, ?_⟩
    rw [magnitude_of_infinite number finite]
    exact unsigned_infinity
  | some b =>
    refine ⟨_, rfl, ?_⟩
    have reads : (Shortest.ofBinary b).magnitude = magnitude x := Shortest.ofBinary_magnitude finite
    rw [← reads]
    exact unsigned_decimal _

/-- A text is read as the number of its shape. -/
theorem read_of_shape {chars : List Char} {s : Shape} {x : Float} (shape : shapeOf? chars = some s)
    (value : s.value? = some x) : read (String.ofList chars) = .ok x := by
  rw [read, String.toList_ofList, shape]
  dsimp only
  rw [value]

section

variable {chars : List Char} {bits : Nat}

/-- An unsigned numeral behind an optional minus. -/
theorem Unsigned.read (numeral : Unsigned chars bits) (negative : Bool) :
    Numeral.read (String.ofList ((if negative then ['-'] else []) ++ chars)) =
      .ok (ofMagnitude negative bits) := by
  obtain ⟨body, same, value⟩ := numeral.body
  exact read_of_shape (shapeOf?_signed negative same numeral.begins) (value negative)

/-- An unsigned numeral behind a plus. -/
theorem Unsigned.read_plus (numeral : Unsigned chars bits) :
    Numeral.read (String.ofList ('+' :: chars)) = .ok (ofMagnitude false bits) := by
  obtain ⟨body, same, value⟩ := numeral.body
  refine read_of_shape (s := ⟨false, body⟩) ?_ (value false)
  simp [shapeOf?, splitSign, same]

end

/-! ## Whole numerals -/

/-- What is written for a float is read as this float. -/
theorem read_write (x : Float) : read (write x) = .ok x := by
  rw [write, Style.write]
  cases number : x.isNaN with
  | true =>
    rw [eq_nan_of_isNaN number]
    rfl
  | false =>
    obtain ⟨chars, text, numeral⟩ := exists_unsigned number
    rw [text, numeral.read, ofMagnitude_magnitude]

end Calculator.Numeral
